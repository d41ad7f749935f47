import Mathlib.Algebra.Order.Floor.Semifield
import Mathlib.Data.Rat.Floor
import Mintage.Emission.Subsidy
import Mintage.Proofs.Number.Dec

/-!
How many decay periods are over at a height.

* `quoTruncate?_decayDistance`: for an interval that is not zero the quotient is there at every
  height, since the scaled distance fits its word.
* `toNat_decayPeriods`: for a positive interval the count is the quotient rounded down, at most
  the greatest 64-bit number. Other intervals have no periods (`decayPeriods_of_nonpos`).
* `decayPeriods_mono`, `decayPeriods_anti`: how the count moves with the height and the
  interval.
* `decayPeriods_exact`: all of it, with every number on the way inside its 128-bit word.
-/

namespace Mintage

/-! ### The quotient -/

lemma decayDistance_eq (height : UInt64) : decayDistance height = height.toNat + 2400000 := by
  rw [decayDistance, heightOffset, decayStart]
  omega

/-- The distance counted in units of 10⁻¹⁸ stays far below 2¹²⁷. -/
lemma scaled_decayDistance_lt (height : UInt64) :
    decayDistance height * Dec.scale < Dec.bound := by
  have hheight := height.toNat_lt_size
  calc decayDistance height * Dec.scale
      ≤ (UInt64.size + 2400000) * Dec.scale := by
        rw [decayDistance_eq]
        exact Nat.mul_le_mul_right _ (by omega)
    _ < Dec.bound := by decide

/-- **The quotient is there** for every interval but zero, at every height. -/
lemma quoTruncate?_decayDistance {interval : Dec} (h : interval.raw ≠ 0) (height : UInt64) :
    interval.quoTruncate? (decayDistance height)
      = some (((decayDistance height * Dec.scale : ℕ) : ℤ).tdiv interval.raw) := by
  have hlt := scaled_decayDistance_lt height
  rw [Dec.quoTruncate?, ← Int.natCast_mul, if_pos]
  exact ⟨h, Dec.fitsWord_natCast hlt, Dec.fitsWord_tdiv hlt _⟩

/-- **The count of decay periods** for a positive interval: the distance divided by it and
rounded down. -/
theorem toNat_decayPeriods {interval : Dec} (h : 0 < interval.raw) (height : UInt64) :
    (decayPeriods interval height).toNat
      = min (decayDistance height * Dec.scale / interval.raw.toNat) (UInt64.size - 1) := by
  obtain ⟨r, hr⟩ := Int.eq_ofNat_of_zero_le h.le
  rw [decayPeriods, quoTruncate?_decayDistance h.ne']
  simp only [Word.toNat_clamp, hr, Int.toNat_natCast]
  rw [← Int.ofNat_tdiv, Int.toNat_natCast]

/-- An interval that is not positive has no decay periods. -/
lemma decayPeriods_of_nonpos {interval : Dec} (h : interval.raw ≤ 0) (height : UInt64) :
    decayPeriods interval height = 0 := by
  by_cases hzero : interval.raw = 0
  · have hnone : interval.quoTruncate? (decayDistance height) = none :=
      if_neg fun h => h.1 hzero
    rw [decayPeriods, hnone]
  · have hquotient : ((decayDistance height * Dec.scale : ℕ) : ℤ).tdiv interval.raw ≤ 0 :=
      Int.tdiv_nonpos_of_nonneg_of_nonpos (Int.natCast_nonneg _) h
    rw [decayPeriods, quoTruncate?_decayDistance hzero]
    simp only [Int.toNat_of_nonpos hquotient]
    rfl

/-- The numbers that the count of decay periods is computed through: the shifted height, the
distance, the distance in units of 10⁻¹⁸, and the quotient cut toward zero. -/
def decaySteps (interval : Dec) (height : UInt64) : List ℤ :=
  [height.toNat + heightOffset, height.toNat + heightOffset - decayStart,
    decayDistance height * Dec.scale, (decayDistance height * Dec.scale : ℤ).tdiv interval.raw]

lemma fitsWord_decaySteps (interval : Dec) (height : UInt64) :
    ∀ n ∈ decaySteps interval height, Dec.fitsWord n := by
  have hheight := height.toNat_lt_size
  have hsize : UInt64.size + heightOffset < Dec.bound := by decide
  have hstart : decayStart ≤ heightOffset := by decide
  have hlt := scaled_decayDistance_lt height
  simp only [decaySteps, List.forall_mem_cons, ← Int.natCast_mul]
  refine ⟨?_, ?_, Dec.fitsWord_natCast hlt, Dec.fitsWord_tdiv hlt _, nofun⟩
  · rw [Dec.fitsWord_iff]
    omega
  · rw [Dec.fitsWord_iff]
    omega

/-! ### Order -/

/-- The periods only grow with the height. -/
lemma decayPeriods_mono (interval : Dec) {height later : UInt64} (h : height ≤ later) :
    decayPeriods interval height ≤ decayPeriods interval later := by
  rcases lt_or_ge 0 interval.raw with hpos | hnonpos
  · rw [UInt64.le_iff_toNat_le, toNat_decayPeriods hpos, toNat_decayPeriods hpos]
    have hdistance : decayDistance height ≤ decayDistance later := by
      rw [decayDistance_eq, decayDistance_eq]
      exact Nat.add_le_add_right (UInt64.le_iff_toNat_le.1 h) _
    exact min_le_min_right _ (Nat.div_le_div_right (Nat.mul_le_mul_right _ hdistance))
  · rw [decayPeriods_of_nonpos hnonpos]
    exact UInt64.zero_le

/-- A wider interval has no more periods. -/
lemma decayPeriods_anti {interval wider : Dec} (hpos : 0 < interval.raw)
    (h : interval.raw ≤ wider.raw) (height : UInt64) :
    decayPeriods wider height ≤ decayPeriods interval height := by
  rw [UInt64.le_iff_toNat_le, toNat_decayPeriods hpos, toNat_decayPeriods (hpos.trans_le h)]
  exact min_le_min_right _ (Nat.div_le_div_left (by omega) (by omega))

/-- **The decay is an exact floor.** At every height and for every interval, no number on the
way leaves its 128-bit word, and the quotient is there unless the interval is zero. The count
of periods is the exact quotient rounded down, as far as a 64-bit number goes, and zero for an
interval that is not positive. So it does not fall with the height, and it does not rise with
a positive interval. -/
theorem decayPeriods_exact (interval : Dec) (height : UInt64) :
    (∀ n ∈ decaySteps interval height, Dec.fitsWord n) ∧
    (interval.raw ≠ 0 → (interval.quoTruncate? (decayDistance height)).isSome) ∧
    (decayPeriods interval height).toNat
      = (if 0 < interval.raw
          then min ⌊((height.toNat + 2400000) * 10 ^ 18 / interval.raw : ℚ)⌋₊ (2 ^ 64 - 1)
          else 0) ∧
    (∀ later, height ≤ later → decayPeriods interval height ≤ decayPeriods interval later) ∧
    ∀ wider : Dec, 0 < interval.raw → interval.raw ≤ wider.raw →
      decayPeriods wider height ≤ decayPeriods interval height := by
  refine ⟨fitsWord_decaySteps interval height, fun h => ?_, ?_, fun _ => decayPeriods_mono interval,
    fun wider hpos h => decayPeriods_anti hpos h height⟩
  · rw [quoTruncate?_decayDistance h]
    rfl
  · split
    · next hpos =>
        obtain ⟨r, hr⟩ := Int.eq_ofNat_of_zero_le hpos.le
        have hfloor : ⌊((height.toNat + 2400000) * 10 ^ 18 / interval.raw : ℚ)⌋₊
            = decayDistance height * Dec.scale / r := by
          have hscaled : ((height.toNat + 2400000) * 10 ^ 18 : ℚ)
              = (decayDistance height * Dec.scale : ℕ) := by
            rw [decayDistance_eq, Dec.scale, Dec.places]
            push_cast
            norm_num
          rw [hscaled, hr, Int.cast_natCast, Nat.floor_div_eq_div]
        rw [toNat_decayPeriods hpos, hfloor, hr, Int.toNat_natCast]
        rfl
    · next hnonpos =>
        rw [decayPeriods_of_nonpos (not_lt.1 hnonpos)]
        rfl

end Mintage
