import Mathlib.Algebra.Order.Group.Unbundled.Int
import Mathlib.Data.Nat.Log
import Mathlib.Tactic.Lemma
import Mathlib.Tactic.Ring
import Mintage.Number.Binary64

/-!
Rounding to binary64 is rounding to the nearest, and so it keeps the order.

* `roundHalfEven_nearest`: no whole number is nearer to a fraction than its rounding.
* `isUnits_roundUnits`, `roundUnits_nearest`: what a fraction is rounded to has at most 53
  significant bits, and no number with so few is nearer.
* `roundUnits_excess`: how far a rounding can lie above its fraction.
* `roundUnits_mono`: a greater fraction is not rounded to less.
-/

namespace Mintage

variable {num den : ℕ}

/-! ### Whole numbers -/

/-- The rounding of a fraction is at most one half away from it. -/
lemma roundHalfEven_bounds (hden : 0 < den) (num : ℕ) :
    2 * (den * roundHalfEven num den) ≤ 2 * num + den ∧
      2 * num ≤ 2 * (den * roundHalfEven num den) + den := by
  have hnum := Nat.div_add_mod num den
  have hrest := Nat.mod_lt num hden
  simp only [roundHalfEven]
  generalize num / den = q at hnum ⊢
  generalize num % den = r at hnum hrest ⊢
  split
  · omega
  · split
    · rw [Nat.mul_add, Nat.mul_one]
      omega
    · rcases Nat.mod_two_eq_zero_or_one q with hq | hq <;> rw [hq, Nat.mul_add] <;> omega

/-- **No whole number is nearer** to a fraction than its rounding. -/
theorem roundHalfEven_nearest (hden : 0 < den) (num n : ℕ) :
    |(num : ℤ) - den * roundHalfEven num den| ≤ |(num : ℤ) - den * n| := by
  obtain ⟨habove, hbelow⟩ := roundHalfEven_bounds hden num
  generalize roundHalfEven num den = r at *
  -- another whole number is at least one away from the rounding
  have hstep {a b : ℕ} (h : a < b) : den * a + den ≤ den * b := by
    rw [← Nat.mul_succ]
    exact Nat.mul_le_mul_left den h
  simp only [Int.abs_eq_natAbs, ← Int.natCast_mul]
  rcases Nat.lt_trichotomy n r with h | rfl | h
  · have := hstep h
    omega
  · exact le_rfl
  · have := hstep h
    omega

/-! ### Numbers of 53 bits -/

lemma roundUnits_zero (den : ℕ) : roundUnits 0 den = 0 := by
  simp [roundUnits, roundHalfEven]

/-- A count of units that a binary64 can have: a whole number of at most 53 significant bits. -/
def IsUnits (n : ℕ) : Prop := ∃ m k, m < 2 ^ 53 ∧ n = m * 2 ^ k

/-- How many bits a whole part has beyond the 53 that are kept. -/
def surplusBits (q : ℕ) : ℕ := q.log2 - 52

/-- Without its surplus bits a whole part has 53 bits at most. -/
lemma div_surplusBits_lt (q : ℕ) : q / 2 ^ surplusBits q < 2 ^ 53 := by
  rw [Nat.div_lt_iff_lt_mul (Nat.two_pow_pos _), ← Nat.pow_add]
  calc q < 2 ^ (q.log2 + 1) := Nat.lt_log2_self
    _ ≤ 2 ^ (53 + surplusBits q) := Nat.pow_le_pow_right (by decide) (by rw [surplusBits]; omega)

/-- A whole part that has surplus bits has 53 others. -/
lemma le_of_surplusBits_pos {q : ℕ} (h : 0 < surplusBits q) : 2 ^ (52 + surplusBits q) ≤ q := by
  rw [surplusBits] at h ⊢
  rw [Nat.add_sub_cancel' (by omega)]
  exact Nat.log2_self_le (by rintro rfl; simp at h)

/-- Rounding to 53 bits is rounding to a whole number at the place of the last bit that is kept. -/
lemma roundUnits_eq (num den : ℕ) :
    roundUnits num den
      = roundHalfEven num (den * 2 ^ surplusBits (num / den)) * 2 ^ surplusBits (num / den) := by
  rw [roundUnits]
  split
  · next h =>
      have hnone : surplusBits (num / den) = 0 := by
        by_contra hpos
        have hle := le_of_surplusBits_pos (Nat.pos_of_ne_zero hpos)
        have h53 : 2 ^ 53 ≤ 2 ^ (52 + surplusBits (num / den)) :=
          Nat.pow_le_pow_right (by decide) (by omega)
        rw [Nat.one_shiftLeft] at h
        omega
      rw [hnone, Nat.pow_zero, Nat.mul_one, Nat.mul_one]
  · rw [Nat.shiftLeft_eq, Nat.shiftLeft_eq]
    rfl

/-- **A rounding has at most 53 significant bits.** -/
theorem isUnits_roundUnits (num den : ℕ) : IsUnits (roundUnits num den) := by
  have hlow := div_surplusBits_lt (num / den)
  rw [Nat.div_div_eq_div_mul] at hlow
  rw [roundUnits_eq]
  generalize surplusBits (num / den) = k at *
  have hle : roundHalfEven num (den * 2 ^ k) ≤ 2 ^ 53 := by
    rw [roundHalfEven]
    split
    · omega
    · split <;> omega
  rcases hle.lt_or_eq with hlt | heq
  · exact ⟨_, k, hlt, rfl⟩
  · exact ⟨2 ^ 52, k + 1, by decide, by rw [heq]; ring⟩

/-- **No number of 53 bits is nearer** to a fraction than its rounding. -/
theorem roundUnits_nearest (hden : 0 < den) (num : ℕ) {n : ℕ} (hn : IsUnits n) :
    |(num : ℤ) - den * roundUnits num den| ≤ |(num : ℤ) - den * n| := by
  obtain ⟨m, j, hm, rfl⟩ := hn
  have hpow := Nat.two_pow_pos (surplusBits (num / den))
  -- the multiples of the last place are no nearer
  have hgrid (x : ℕ) : |(num : ℤ) - den * roundUnits num den|
      ≤ |(num : ℤ) - den * (x * 2 ^ surplusBits (num / den) : ℕ)| := by
    have h := roundHalfEven_nearest (Nat.mul_pos hden hpow) num x
    rw [roundUnits_eq]
    push_cast at h ⊢
    simpa only [mul_assoc, mul_comm, mul_left_comm] using h
  rcases le_or_gt (surplusBits (num / den)) j with hj | hj
  · have hmultiple : m * 2 ^ j
        = m * 2 ^ (j - surplusBits (num / den)) * 2 ^ surplusBits (num / den) := by
      rw [mul_assoc, ← pow_add, Nat.sub_add_cancel hj]
    rw [hmultiple]
    exact hgrid _
  · -- a number with a lower last place lies below the power of two that the fraction has reached,
    -- and that power is a multiple
    refine (hgrid (2 ^ 52)).trans ?_
    have hbelow : m * 2 ^ j ≤ 2 ^ 52 * 2 ^ surplusBits (num / den) :=
      calc m * 2 ^ j ≤ 2 ^ 53 * 2 ^ j := Nat.mul_le_mul_right _ hm.le
        _ = 2 ^ 52 * 2 ^ (j + 1) := by ring
        _ ≤ 2 ^ 52 * 2 ^ surplusBits (num / den) :=
            Nat.mul_le_mul_left _ (Nat.pow_le_pow_right (by decide) hj)
    have hreached : den * (2 ^ 52 * 2 ^ surplusBits (num / den)) ≤ num := by
      rw [← pow_add, mul_comm, ← Nat.le_div_iff_mul_le hden]
      exact le_of_surplusBits_pos (by omega)
    have := Nat.mul_le_mul_left den hbelow
    simp only [Int.abs_eq_natAbs, ← Int.natCast_mul]
    omega

/-- **A rounding exceeds its fraction** by one part in 2⁵³ at most where bits are lost, and by half
a unit at most where none are. -/
lemma roundUnits_excess (hden : 0 < den) (num : ℕ) :
    2 ^ 53 * (den * roundUnits num den) ≤ (2 ^ 53 + 1) * num + 2 ^ 52 * den := by
  have hplace : 0 < den * 2 ^ surplusBits (num / den) := Nat.mul_pos hden (Nat.two_pow_pos _)
  have habove := (roundHalfEven_bounds hplace num).1
  have hsame : den * 2 ^ surplusBits (num / den)
      * roundHalfEven num (den * 2 ^ surplusBits (num / den)) = den * roundUnits num den := by
    rw [roundUnits_eq]
    ac_rfl
  rw [hsame] at habove
  -- half of the last place that is kept is half a unit, or small against the fraction
  have hlast : 2 ^ 52 * (den * 2 ^ surplusBits (num / den)) ≤ num + 2 ^ 52 * den := by
    rcases Nat.eq_zero_or_pos (surplusBits (num / den)) with hnone | hpos
    · rw [hnone, Nat.pow_zero, Nat.mul_one]
      exact Nat.le_add_left ..
    · have hreached := (Nat.le_div_iff_mul_le hden).1 (le_of_surplusBits_pos hpos)
      calc 2 ^ 52 * (den * 2 ^ surplusBits (num / den))
          = 2 ^ (52 + surplusBits (num / den)) * den := by ring
        _ ≤ num := hreached
        _ ≤ num + 2 ^ 52 * den := Nat.le_add_right ..
  omega

/-- **Rounding keeps the order.** Were a greater fraction rounded to less, both would lie at the
middle between the two results, since neither is nearer to the other one's; so they would be the
same. -/
theorem roundUnits_mono (hden : 0 < den) {more : ℕ} (h : num ≤ more) :
    roundUnits num den ≤ roundUnits more den := by
  by_contra hlt
  have hnum := roundUnits_nearest hden num (isUnits_roundUnits more den)
  have hmore := roundUnits_nearest hden more (isUnits_roundUnits num den)
  have hstep : den * roundUnits more den < den * roundUnits num den :=
    Nat.mul_lt_mul_of_pos_left (not_le.1 hlt) hden
  simp only [Int.abs_eq_natAbs, ← Int.natCast_mul] at hnum hmore
  obtain rfl : num = more := by omega
  exact hlt le_rfl

end Mintage
