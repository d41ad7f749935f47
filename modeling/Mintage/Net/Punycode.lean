/-!
The ASCII form of a label with other characters in it: the ASCII characters as they are,
then, for each other character in ascending order, how far on from the one before it
stands, in digits of base 36.

* `encode`, `decode?`: the form of a label and the label of a form, without the mark in
  front of it.
-/

namespace Mintage.Net.Punycode

/-- The digits are the letters and then the numerals. -/
def digitChar (d : Nat) : Char :=
  if d < 26 then Char.ofNat (97 + d) else Char.ofNat (48 + (d - 26))

/-- The value of a digit in base 36; letters come first, in either case. -/
def digitValue? (c : Char) : Option Nat :=
  if 'a' ≤ c ∧ c ≤ 'z' then some (c.toNat - 97)
  else if 'A' ≤ c ∧ c ≤ 'Z' then some (c.toNat - 65)
  else if '0' ≤ c ∧ c ≤ '9' then some (c.toNat - 48 + 26)
  else none

/-- The least digit that another one follows, at a place and with a bias. -/
def threshold (place bias : Nat) : Nat :=
  max 1 (min 26 (36 * place - bias))

theorem threshold_bounds (place bias : Nat) :
    1 ≤ threshold place bias ∧ threshold place bias ≤ 26 := by
  unfold threshold
  omega

/-- Divides until few are left, and counts 36 for each time. -/
def settle (delta : Nat) : Nat :=
  if 455 < delta then 36 + settle (delta / 35) else 36 * delta / (delta + 38)

/-- The bias for the next distance, after one of `delta` to the character that makes
`count`. -/
def adapt (delta count : Nat) (first : Bool) : Nat :=
  let d := if first then delta / 700 else delta / 2
  settle (d + d / count)

/-- The bias before the first delta. -/
def initialBias : Nat := 72

/-- The first code point that is not ASCII. -/
def initialPoint : Nat := 128

/-! ### Writing -/

/-- The digits of a distance from a place on; the first place is 1. -/
def distance (bias place n : Nat) : List Char :=
  let t := threshold place bias
  if h : n < t then [digitChar n]
  else digitChar (t + (n - t) % (36 - t)) :: distance bias (place + 1) ((n - t) / (36 - t))
termination_by n
decreasing_by
  have := threshold_bounds place bias
  exact Nat.lt_of_le_of_lt (Nat.div_le_self _ _) (by omega)

/-- How far the writing has come. -/
structure Writing where
  out : List Char
  delta : Nat
  bias : Nat
  /-- How many characters are written. -/
  count : Nat

/-- Passes one character of the label while the character `m` is written. -/
def pass (basic m : Nat) (w : Writing) (c : Char) : Writing :=
  if c.toNat < m then { w with delta := w.delta + 1 }
  else if c.toNat = m then
    ⟨w.out ++ distance w.bias 1 w.delta, 0,
      adapt w.delta (w.count + 1) (w.count == basic), w.count + 1⟩
  else w

/-- Writes the characters `ms`, in ascending order, of a label; `n` is the least one not
written yet. -/
def writeRest (label : List Char) (basic : Nat) : Nat → List Nat → Writing → Writing
  | _, [], w => w
  | n, m :: ms, w =>
      let start := { w with delta := w.delta + (m - n) * (w.count + 1) }
      let done := label.foldl (pass basic m) start
      writeRest label basic (m + 1) ms { done with delta := done.delta + 1 }

/-- A character that stands for itself. -/
def isAscii (c : Char) : Bool :=
  c.toNat < 128

/-- The ASCII form of a label. -/
def encode (label : List Char) : List Char :=
  let basic := label.filter isAscii
  let others := ((label.filter fun c => !isAscii c).map Char.toNat).mergeSort.eraseDups
  let w := writeRest label basic.length initialPoint others ⟨[], 0, initialBias, basic.length⟩
  basic ++ (if basic.isEmpty then [] else ['-']) ++ w.out

/-! ### Reading -/

/-- Reads a distance from a place on, in units of `weight`; gives also what follows,
which is shorter. -/
def readDistance? (bias : Nat) :
    Nat → Nat → (s : List Char) → Option (Nat × { r : List Char // r.length < s.length })
  | _, _, [] => none
  | place, weight, c :: r => do
      let d ← digitValue? c
      let t := threshold place bias
      if d < t then return (d * weight, ⟨r, by simp⟩)
      else
        let (n, ⟨u, hu⟩) ← readDistance? bias (place + 1) (weight * (36 - t)) r
        return (d * weight + n, ⟨u, by simp only [List.length_cons]; omega⟩)

/-- Reads the distances that follow, and puts their characters in. -/
def readRest? (label : List Char) (position point bias : Nat) (s : List Char) :
    Option (List Char) :=
  match s with
  | [] => some label
  | c :: r =>
      match readDistance? bias 1 1 (c :: r) with
      | none => none
      | some (n, ⟨u, hu⟩) =>
          let total := label.length + 1
          let place := (position + n) % total
          let code := point + (position + n) / total
          if code.isValidChar then
            readRest? (label.take place ++ Char.ofNat code :: label.drop place) (place + 1) code
              (adapt n total (position == 0)) u
          else none
termination_by s.length
decreasing_by exact hu

/-- The text before and after the last hyphen; without one, all of the text comes after. -/
def cutAtHyphen (s : List Char) : List Char × List Char :=
  let tail := s.reverse.takeWhile (· != '-')
  (s.take (s.length - tail.length - 1), tail.reverse)

/-- The label of an ASCII form. -/
def decode? (s : List Char) : Option (List Char) :=
  let (basic, rest) := cutAtHyphen s
  if basic.all isAscii then readRest? basic 0 initialPoint initialBias rest else none

end Mintage.Net.Punycode
