import Mintage.Number.Word

/-!
Finite binary64 numbers in exact arithmetic. Every finite binary64 is a whole multiple
of the least positive one, 2⁻¹⁰⁷⁴, so a number is kept as its sign and that multiple,
its *units*. An operation takes the exact result as a fraction and rounds it once, to
the nearest number with at most 53 significant bits and to the even one of two that are
equally near. There is no upper end: all the values met here lie far below 2¹⁰²⁴.

* `roundUnits_shiftLeft`: from 53 bits on, rounding commutes with doubling.
-/

namespace Mintage

/-- The whole number nearest to `num / den`; of two equally near, the even one. -/
def roundHalfEven (num den : Nat) : Nat :=
  let q := num / den
  let r := num % den
  if 2 * r < den then q
  else if den < 2 * r then q + 1
  else q + q % 2

/-- The whole number with at most 53 significant bits that is nearest to `num / den`. -/
def roundUnits (num den : Nat) : Nat :=
  let q := num / den
  if q < 1 <<< 53 then roundHalfEven num den
  else
    let k := q.log2 - 52
    roundHalfEven num (den <<< k) <<< k

theorem le_roundHalfEven (num den : Nat) : num / den ≤ roundHalfEven num den := by
  rw [roundHalfEven]
  split
  · exact Nat.le_refl _
  · split <;> omega

/-- A common factor of both parts of a fraction does not change its rounding. -/
theorem roundHalfEven_mul_right {c : Nat} (h : 0 < c) (num den : Nat) :
    roundHalfEven (num * c) (den * c) = roundHalfEven num den := by
  have h₁ : 2 * (num % den * c) < den * c ↔ 2 * (num % den) < den := by
    rw [← Nat.mul_assoc, Nat.mul_lt_mul_right h]
  have h₂ : den * c < 2 * (num % den * c) ↔ den < 2 * (num % den) := by
    rw [← Nat.mul_assoc, Nat.mul_lt_mul_right h]
  simp only [roundHalfEven, Nat.mul_div_mul_right _ _ h, Nat.mul_mod_mul_right, h₁, h₂]

theorem one_shiftLeft_le {a b : Nat} (h : a ≤ b) : 1 <<< a ≤ 1 <<< b := by
  rw [Nat.one_shiftLeft, Nat.one_shiftLeft]
  exact Nat.pow_le_pow_right (by decide) h

/-- Rounding keeps the leading bit of what it rounds. -/
theorem leadingBit_le_roundUnits {num den : Nat} (h : 1 <<< 53 ≤ num / den) :
    1 <<< (num / den).log2 ≤ roundUnits num den := by
  rw [Nat.one_shiftLeft]
  have hq : num / den ≠ 0 := by omega
  have hk : 53 ≤ (num / den).log2 := (Nat.le_log2 hq).2 (Nat.one_shiftLeft 53 ▸ h)
  have hden : num / (den <<< ((num / den).log2 - 52))
      = num / den / 2 ^ ((num / den).log2 - 52) := by
    rw [Nat.shiftLeft_eq, Nat.div_div_eq_div_mul]
  have hlow : 2 ^ 52 ≤ num / den / 2 ^ ((num / den).log2 - 52) := by
    rw [Nat.le_div_iff_mul_le (Nat.two_pow_pos _), ← Nat.pow_add]
    calc 2 ^ (52 + ((num / den).log2 - 52)) = 2 ^ (num / den).log2 := by congr 1; omega
      _ ≤ num / den := Nat.log2_self_le hq
  rw [roundUnits, if_neg (by omega), Nat.shiftLeft_eq]
  calc 2 ^ (num / den).log2
      = 2 ^ 52 * 2 ^ ((num / den).log2 - 52) := by rw [← Nat.pow_add]; congr 1; omega
    _ ≤ _ := Nat.mul_le_mul_right _ (Nat.le_trans hlow (hden ▸ le_roundHalfEven ..))

/-- Doubling a number of more than 53 bits, however often, doubles its rounding. -/
theorem roundUnits_shiftLeft {num den : Nat} (h : 1 <<< 53 ≤ num / den) (e : Nat) :
    roundUnits (num <<< e) den = roundUnits num den <<< e := by
  rw [Nat.shiftLeft_eq, Nat.shiftLeft_eq]
  have hden : 0 < den := Nat.pos_of_ne_zero fun h0 => by simp [h0] at h
  have hq : num * 2 ^ e / den / 2 ^ e = num / den := by
    rw [Nat.div_div_eq_div_mul, Nat.mul_div_mul_right _ _ (Nat.two_pow_pos e)]
  have hle : 1 <<< 53 * 2 ^ e ≤ num * 2 ^ e / den :=
    (Nat.le_div_iff_mul_le (Nat.two_pow_pos e)).1 (hq ▸ h)
  have hbig : ¬ num * 2 ^ e / den < 1 <<< 53 := by
    have := Nat.le_mul_of_pos_right (1 <<< 53) (Nat.two_pow_pos e)
    omega
  have hlog : (num * 2 ^ e / den).log2 = (num / den).log2 + e := by
    have h0 : num / den ≠ 0 := by omega
    have h1 : num * 2 ^ e / den ≠ 0 := by omega
    apply Nat.le_antisymm
    · apply Nat.le_of_lt_succ
      rw [Nat.log2_lt h1]
      have : num / den < 2 ^ ((num / den).log2 + 1) := Nat.lt_log2_self
      rw [← hq, Nat.div_lt_iff_lt_mul (Nat.two_pow_pos e), ← Nat.pow_add] at this
      rw [hq] at this
      exact Nat.lt_of_lt_of_le this (Nat.pow_le_pow_right (by decide) (by omega))
    · rw [Nat.le_log2 h1, Nat.pow_add]
      have := Nat.log2_self_le h0
      rw [← hq, Nat.le_div_iff_mul_le (Nat.two_pow_pos e), hq] at this
      exact this
  have hk : 52 ≤ (num / den).log2 :=
    Nat.le_trans (by decide) ((Nat.le_log2 (by omega)).2 (Nat.one_shiftLeft 53 ▸ h))
  rw [roundUnits, roundUnits, if_neg hbig, if_neg (by omega), hlog]
  have hsplit : den <<< ((num / den).log2 + e - 52) = den <<< ((num / den).log2 - 52) * 2 ^ e := by
    rw [Nat.shiftLeft_eq, Nat.shiftLeft_eq, Nat.mul_assoc, ← Nat.pow_add]
    congr 2
    omega
  dsimp only
  rw [hsplit, roundHalfEven_mul_right (Nat.two_pow_pos e)]
  generalize roundHalfEven num _ = r
  rw [Nat.shiftLeft_eq, Nat.shiftLeft_eq, Nat.mul_assoc, ← Nat.pow_add]
  congr 2
  omega

/-- A finite binary64 number: a sign and a multiple of 2⁻¹⁰⁷⁴. -/
structure Binary64 where
  negative : Bool
  units : Nat
  deriving DecidableEq, Repr

namespace Binary64

/-- The least positive number is one divided by two, so many times. -/
def unitBits : Nat := 1074

/-- How many units make one. -/
def unitsPerOne : Nat := 1 <<< unitBits

/-- The units of the least positive normal number, 2⁻¹⁰²². -/
def minNormalUnits : Nat := 1 <<< 52

/-- Zero without a sign. -/
def zero : Binary64 := ⟨false, 0⟩

/-- The number nearest to an integer. Zero is not negative. -/
def ofInt (n : Int) : Binary64 :=
  ⟨decide (n < 0), roundUnits (n.natAbs * unitsPerOne) 1⟩

/-- The rounded product. -/
def mul (a b : Binary64) : Binary64 :=
  ⟨a.negative != b.negative, roundUnits (a.units * b.units) unitsPerOne⟩

/-- The rounded product with a whole number that is itself a binary64. -/
def timesNat (a : Binary64) (n : Nat) : Binary64 :=
  ⟨a.negative, roundUnits (a.units * n) 1⟩

/-- The rounded quotient by a positive whole number that is itself a binary64. -/
def overNat (a : Binary64) (n : Nat) : Binary64 :=
  ⟨a.negative, roundUnits a.units n⟩

/-- The number, or zero where it is negative. -/
def clampNegative (a : Binary64) : Binary64 :=
  if a.negative then zero else a

/-- The whole part as an unsigned 64-bit number: negative numbers give 0 and large ones
the greatest value. -/
def toUInt64 (a : Binary64) : UInt64 :=
  if a.negative then 0 else Word.clamp (a.units / unitsPerOne)

/-- The bits of the interchange format: sign, eleven bits of exponent, 52 bits of
fraction. -/
def toBits (a : Binary64) : Nat :=
  let sign := if a.negative then 1 <<< 63 else 0
  if a.units < minNormalUnits then sign + a.units
  else
    let e := a.units.log2 - 52
    sign + (e + 1) <<< 52 + (a.units >>> e - minNormalUnits)

end Binary64

end Mintage
