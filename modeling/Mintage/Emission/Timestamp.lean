/-!
Points in time: a second since 1970 and the nanoseconds passed in it. A leap second is
the last second of a minute going on for longer, so in that second the nanoseconds may
reach two thousand million. The seconds run over 262144 years on either side.

* `Timestamp.since`: the difference counts a leap second between two points of the same
  day.
-/

namespace Mintage

/-- The earliest second. -/
def firstSecond : Int := -8334601228800

/-- The latest second. -/
def lastSecond : Int := 8210266876799

/-- A second since 1970 and the nanoseconds passed in it. -/
structure Timestamp where
  secs : Int
  nanos : Nat
  first_le : firstSecond ≤ secs
  le_last : secs ≤ lastSecond
  nanos_lt : nanos < 2000000000
  /-- Only the last second of a minute may be a leap second. -/
  leap : 1000000000 ≤ nanos → secs % 60 = 59
  deriving DecidableEq

namespace Timestamp

/-- The point with the given seconds and nanoseconds, where there is one. -/
def ofUnix? (secs : Int) (nanos : Nat) : Option Timestamp :=
  if h₁ : firstSecond ≤ secs then
    if h₂ : secs ≤ lastSecond then
      if h₃ : nanos < 2000000000 then
        if h₄ : 1000000000 ≤ nanos → secs % 60 = 59 then some ⟨secs, nanos, h₁, h₂, h₃, h₄⟩
        else none
      else none
    else none
  else none

/-- The start of 1970. -/
def epoch : Timestamp :=
  ⟨0, 0, by decide, by decide, by decide, by decide⟩

instance : Inhabited Timestamp := ⟨epoch⟩

/-- Whether a point is no later than another. -/
def notAfter (a b : Timestamp) : Bool :=
  decide (a.secs < b.secs ∨ (a.secs = b.secs ∧ a.nanos ≤ b.nanos))

/-- The seconds since midnight. -/
def secondOfDay (t : Timestamp) : Int :=
  t.secs % 86400

/-- The nanoseconds from `b` to `a`. A leap second is counted where it lies between the
two times of day. -/
def since (a b : Timestamp) : Int :=
  let leap :=
    if b.secondOfDay < a.secondOfDay ∧ 1000000000 ≤ b.nanos then 1
    else if a.secondOfDay < b.secondOfDay ∧ 1000000000 ≤ a.nanos then -1
    else 0
  (a.secs - b.secs + leap) * 1000000000 + ((a.nanos : Int) - b.nanos)

/-- The whole milliseconds from `b` to `a`, cut toward zero. -/
def millisSince (a b : Timestamp) : Int :=
  (a.since b).tdiv 1000000

end Timestamp

end Mintage
