import Mintage.Proofs.Emission.Decay
import Mintage.Proofs.Number.Rounding

/-!
How the amount that is minted for a block moves with its height and with the time since the
block before.

* `decayFrom_mono`, `decayFrom_anti`: what is left after some periods moves with what was there
  before, and does not rise from one period to the next. Every step is rounded, and rounding
  keeps the order.
* `issued_mono`: the amount moves with the subsidy and with the time that has passed.
* `provision_amount_le`: a later height and a shorter time never mint more, and no block mints
  more than a subsidy that has not decayed gives for its time.
-/

namespace Mintage

/-! ### Decay -/

/-- A period keeps the order of what it takes its share from. -/
lemma decayUnits_mono {u v : ℕ} (h : u ≤ v) : decayUnits u ≤ decayUnits v :=
  roundUnits_mono (by decide) (roundUnits_mono (by decide) (Nat.mul_le_mul_right 99 h))

/-- **What is left** of more is not less, after any number of periods: the greater number drops
out of the normal ones no sooner. -/
theorem decayFrom_mono {u v : ℕ} (h : u ≤ v) (n : ℕ) : decayFrom u n ≤ decayFrom v n := by
  induction n generalizing u v with
  | zero => exact h
  | succ n ih =>
      have hnext := decayUnits_mono h
      rw [decayFrom, decayFrom]
      split
      · exact Nat.zero_le _
      · rw [if_neg (by omega)]
        exact ih hnext

/-- The first period takes something away from one token. -/
lemma decayUnits_unitsPerOne_le : decayUnits Binary64.unitsPerOne ≤ Binary64.unitsPerOne := by
  have hless : decayUnits (1 <<< 54) ≤ 1 <<< 54 := by decide
  have hsame (e : ℕ) : decayUnits (1 <<< (54 + e)) ≤ 1 <<< (54 + e) := by
    rw [Nat.shiftLeft_add, decayUnits_shiftLeft le_rfl, Nat.shiftLeft_eq, Nat.shiftLeft_eq _ e]
    exact Nat.mul_le_mul_right _ hless
  exact hsame spareBits

/-- One period more leaves no more of a token. The order is carried through the periods that
follow the first one. -/
lemma decayFrom_succ_le (n : ℕ) :
    decayFrom Binary64.unitsPerOne (n + 1) ≤ decayFrom Binary64.unitsPerOne n := by
  rw [decayFrom]
  split
  · exact Nat.zero_le _
  · exact decayFrom_mono decayUnits_unitsPerOne_le n

/-- **More periods** leave no more of a token. -/
theorem decayFrom_anti : Antitone (decayFrom Binary64.unitsPerOne) :=
  antitone_nat_of_succ_le decayFrom_succ_le

/-! ### The amount -/

namespace Binary64

lemma unitsPerOne_pos : 0 < unitsPerOne := by
  rw [unitsPerOne, Nat.one_shiftLeft]
  exact Nat.two_pow_pos _

/-- One, as a binary64. -/
def one : Binary64 := ⟨false, unitsPerOne⟩

/-- The exact value of a number, counted in units. -/
def value (a : Binary64) : ℤ := if a.negative then -a.units else a.units

/-- A number with a value above zero is not negative. -/
lemma eq_of_value_pos {a : Binary64} (h : 0 < a.value) : a = ⟨false, a.units⟩ := by
  obtain ⟨_ | _, u⟩ := a
  · rfl
  · simp only [value, if_true] at h
    omega

/-- The whole part of more is not less. -/
lemma toUInt64_mono {u v : ℕ} (h : u ≤ v) : toUInt64 ⟨false, u⟩ ≤ toUInt64 ⟨false, v⟩ := by
  simp only [toUInt64, Bool.false_eq_true, if_false]
  rw [UInt64.le_iff_toNat_le, Word.toNat_clamp, Word.toNat_clamp]
  exact min_le_min_right _ (Nat.div_le_div_right h)

end Binary64

/-- The amount minted for a subsidy and for the seconds that have passed, in base units. -/
def issued (subsidy elapsed : Binary64) : UInt64 :=
  (((subsidy.mul elapsed).overNat 60).clampNegative.timesNat unitsPerToken).toUInt64

/-- The amount of a block is what its subsidy gives for its time. -/
lemma amount_provision (params : Params) (height : UInt64) (current previous : Timestamp) :
    (provision params height current previous).amount
      = issued (decayedSubsidy (decayPeriods params.subsidyHalvingInterval height))
          (elapsedSeconds current previous) := rfl

/-- Where no time has passed, or less than none, nothing is minted. -/
lemma issued_of_value_nonpos (u : ℕ) {elapsed : Binary64} (h : elapsed.value ≤ 0) :
    issued ⟨false, u⟩ elapsed = 0 := by
  have hnothing : Binary64.zero.timesNat unitsPerToken = ⟨false, 0⟩ := by
    rw [Binary64.timesNat, Binary64.zero, Nat.zero_mul, roundUnits_zero]
  have hclamp : (((Binary64.mul ⟨false, u⟩ elapsed).overNat 60)).clampNegative = .zero := by
    obtain ⟨_ | _, t⟩ := elapsed
    · obtain rfl : t = 0 := by
        simp only [Binary64.value, Bool.false_eq_true, if_false] at h
        omega
      simp only [Binary64.mul, Binary64.overNat, Nat.mul_zero, roundUnits_zero]
      rfl
    · rfl
  rw [issued, hclamp, hnothing]
  rfl

/-- **The amount** moves with the subsidy and with the time. -/
theorem issued_mono {u v : ℕ} (h : u ≤ v) {elapsed longer : Binary64}
    (htime : elapsed.value ≤ longer.value) :
    issued ⟨false, u⟩ elapsed ≤ issued ⟨false, v⟩ longer := by
  rcases le_or_gt elapsed.value 0 with hnone | hpos
  · rw [issued_of_value_nonpos u hnone]
    exact UInt64.zero_le
  have helapsed := Binary64.eq_of_value_pos hpos
  have hlonger := Binary64.eq_of_value_pos (hpos.trans_le htime)
  have hunits : elapsed.units ≤ longer.units := by
    rw [helapsed, hlonger] at htime
    simpa [Binary64.value] using htime
  rw [helapsed, hlonger]
  -- the product, the quotient by sixty and the base units are rounded one after the other
  refine Binary64.toUInt64_mono (roundUnits_mono Nat.one_pos (Nat.mul_le_mul_right _ ?_))
  exact roundUnits_mono (by decide)
    (roundUnits_mono Binary64.unitsPerOne_pos (Nat.mul_le_mul h hunits))

/-- **Issuance never rises with the height and never falls with the time.** Whatever the
parameters are, a block at a later height and after no more seconds mints no more; and no block
mints more than a whole token a minute gives for its seconds. -/
theorem provision_amount_le (params : Params) {height later : UInt64}
    {current previous current' previous' : Timestamp} (hheight : height ≤ later)
    (htime : (elapsedSeconds current' previous').value ≤ (elapsedSeconds current previous).value) :
    (provision params later current' previous').amount
        ≤ (provision params height current previous).amount ∧
      (provision params height current previous).amount
        ≤ issued .one (elapsedSeconds current previous) := by
  have hperiods := decayPeriods_mono params.subsidyHalvingInterval hheight
  rw [amount_provision, amount_provision, decayedSubsidy_eq, decayedSubsidy_eq]
  exact ⟨issued_mono (decayFrom_anti (UInt64.le_iff_toNat_le.1 hperiods)) htime,
    issued_mono (decayFrom_anti (Nat.zero_le _)) le_rfl⟩

/-- Ten seconds into 1970. -/
def tenSeconds : Timestamp := ⟨10, 0, by decide, by decide, Timestamp.epoch.nanos_lt, by decide⟩

/-- With the default parameters, ten seconds at height 1000000 mint less than the minute that a
clock standing still counts as at height 10. -/
theorem provision_amount_le_tenSeconds :
    (10 : UInt64) ≤ 1000000 ∧
    (elapsedSeconds tenSeconds .epoch).value ≤ (elapsedSeconds .epoch .epoch).value ∧
    (provision .default 1000000 tenSeconds .epoch).amount
      ≤ (provision .default 10 .epoch .epoch).amount ∧
    (provision .default 10 .epoch .epoch).amount = 98010000 ∧
    issued .one (elapsedSeconds .epoch .epoch) = 100000000 := by
  have hheight : (10 : UInt64) ≤ 1000000 := by decide
  have htime : (elapsedSeconds tenSeconds .epoch).value ≤ (elapsedSeconds .epoch .epoch).value := by
    decide +kernel
  exact ⟨hheight, htime, (provision_amount_le .default hheight htime).1, by decide +kernel,
    by decide +kernel⟩

end Mintage
