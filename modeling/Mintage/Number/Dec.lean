import Mintage.Number.Binary64
import Mintage.Text.Blank
import Mintage.Text.Digits

/-!
Fixed-point decimals with 18 places, kept as the integer that counts units of 10⁻¹⁸. The
count fits a signed 128-bit word, and so does its negative.

* `Dec.read?`: white space around the number, an optional minus sign, digits, and at
  most 18 places.
* `Dec.text`: the canonical form, with all 18 places.
-/

namespace Mintage

/-- The first count of units that is too large, 2¹²⁷. -/
def Dec.bound : Nat := 1 <<< 127

/-- A decimal with 18 places: `raw` counts units of 10⁻¹⁸. -/
structure Dec where
  raw : Int
  raw_lt : raw.natAbs < Dec.bound
  deriving DecidableEq

namespace Dec

/-- The number of places after the point. -/
def places : Nat := 18

/-- How many units make one. -/
def scale : Nat := Nat.pow 10 places

/-- The decimal with a given count of units, where that fits. -/
def ofRaw? (raw : Int) : Option Dec :=
  if h : raw.natAbs < bound then some ⟨raw, h⟩ else none

/-- The decimal 0. -/
def zero : Dec := ⟨0, by decide⟩

/-- The decimal 1. -/
def one : Dec := ⟨scale, by decide⟩

instance : Inhabited Dec := ⟨zero⟩

/-- A value divided by ten as often as `prec` says; a precision above 18 counts as 18. -/
def withPrecision (value : Int64) (prec : Nat) : Dec :=
  ⟨value.toInt * Nat.pow 10 (places - min prec places), by
    have hlow := value.le_toInt
    have hhigh := value.toInt_lt
    have hv : value.toInt.natAbs ≤ 1 <<< 63 := by omega
    have hp : Nat.pow 10 (places - min prec places) ≤ scale :=
      Nat.pow_le_pow_right (by decide) (Nat.sub_le _ _)
    rw [Int.natAbs_mul, Int.natAbs_natCast]
    exact Nat.lt_of_le_of_lt (Nat.mul_le_mul hv hp) (by decide)⟩

/-- A whole number as a decimal. -/
def ofInt64 (value : Int64) : Dec :=
  withPrecision value 0

/-- Below zero. -/
def isNegative (d : Dec) : Bool := decide (d.raw < 0)

/-- Equal to zero. -/
def isZero (d : Dec) : Bool := decide (d.raw = 0)

/-- Above zero. -/
def isPositive (d : Dec) : Bool := decide (0 < d.raw)

/-! ### Arithmetic -/

/-- Whether an integer fits a signed 128-bit word. -/
def fitsWord (n : Int) : Bool :=
  decide (-(bound : Int) ≤ n ∧ n < bound)

/-- The quotient `numerator / d` cut toward zero, or nothing where `d` is zero or the
scaled numerator does not fit a signed 128-bit word. -/
def quoTruncate? (d : Dec) (numerator : Int) : Option Int :=
  let scaled := numerator * scale
  if d.raw ≠ 0 ∧ fitsWord scaled ∧ fitsWord (scaled.tdiv d.raw)
    then some (scaled.tdiv d.raw) else none

/-- The nearest binary64 to the nearest binary64 of the count divided by 10¹⁸. -/
def toBinary64 (d : Dec) : Binary64 :=
  (Binary64.ofInt d.raw).overNat scale

/-! ### Text -/

/-- The canonical form: an optional minus sign, the whole part, a point and 18 places. -/
def chars (d : Dec) : List Char :=
  (if d.raw < 0 then ['-'] else []) ++ Text.digits (d.raw.natAbs / scale) ++
    '.' :: Text.paddedDigits places (d.raw.natAbs % scale)

/-- The digits with all eighteen places, as a text. -/
def text (d : Dec) : String :=
  String.ofList d.chars

/-- Reads digits with an optional point and at most 18 places after it, as a count of
units. -/
def readUnits? (body : List Char) : Option Nat :=
  match Text.splitAt? '.' body with
  | none => (Text.readNat? body).map (· * scale)
  | some (whole, frac) =>
      if frac.length ≤ places then do
        let w ← Text.readNat? whole
        let f ← Text.readNat? frac
        return w * scale + f * Nat.pow 10 (places - frac.length)
      else none

/-- Reads a decimal with white space around it and at most one minus sign in front. -/
def read? (s : List Char) : Option Dec :=
  match Text.trim s with
  | '-' :: body => do
      let n ← readUnits? body
      ofRaw? (-(n : Int))
  | body => do
      let n ← readUnits? body
      ofRaw? n

/-- Reads a decimal from a string. -/
def ofString? (s : String) : Option Dec :=
  read? s.toList

end Dec

end Mintage
