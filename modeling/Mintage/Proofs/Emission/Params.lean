import Mathlib.Tactic.Lemma
import Mintage.Emission.Params
import Mintage.Proofs.Text.Blank
import Mintage.Proofs.Text.Utf8

/-!
Which parameters are usable.

* `IsDenomination`: the grammar of denominations. `isDenom_iff`: the check of a denomination
  decides it, though it counts bytes.
* `Usable`: what parameters must be like for a subsidy to be computed with them.
* `validate_eq_ok_iff`: the check of parameters accepts just those.
-/

namespace Mintage

/-- A Latin letter of either case. -/
def IsLetter (c : Char) : Prop := 'a' ≤ c ∧ c ≤ 'z' ∨ 'A' ≤ c ∧ c ≤ 'Z'

/-- A letter, a digit, or one of five marks. -/
def IsDenomLetter (c : Char) : Prop :=
  IsLetter c ∨ '0' ≤ c ∧ c ≤ '9' ∨ c ∈ ['/', ':', '.', '_', '-']

/-- A denomination: a letter, and behind it 2 to 127 letters, digits or marks. -/
def IsDenomination (denom : String) : Prop :=
  ∃ first rest, denom.toList = first :: rest ∧ IsLetter first ∧
    2 ≤ rest.length ∧ rest.length ≤ 127 ∧ ∀ c ∈ rest, IsDenomLetter c

/-! ### Letters -/

lemma isAlpha_iff (c : Char) : c.isAlpha = true ↔ IsLetter c := by
  have hlower : c.isLower = true ↔ 'a' ≤ c ∧ c ≤ 'z' :=
    Bool.and_eq_true_iff.trans (and_congr decide_eq_true_iff decide_eq_true_iff)
  rw [IsLetter, ← hlower, ← Text.isUpper_iff, or_comm]
  exact Bool.or_eq_true_iff

lemma isDenomChar_iff (c : Char) : Params.isDenomChar c = true ↔ IsDenomLetter c := by
  have hdigit : c.isDigit = true ↔ '0' ≤ c ∧ c ≤ '9' :=
    Bool.and_eq_true_iff.trans (and_congr decide_eq_true_iff decide_eq_true_iff)
  have halphanum : c.isAlphanum = true ↔ c.isAlpha = true ∨ c.isDigit = true := Bool.or_eq_true_iff
  simp [Params.isDenomChar, halphanum, isAlpha_iff, hdigit, IsDenomLetter, or_assoc]

/-- What a denomination is made of takes one byte each. -/
lemma IsDenomLetter.val_le {c : Char} (h : IsDenomLetter c) : c.val ≤ 127 := by
  have hz : 'z'.val ≤ 127 := by decide
  rcases h with (⟨-, h⟩ | ⟨-, h⟩) | ⟨-, h⟩ | h
  · exact UInt32.le_trans h hz
  · exact UInt32.le_trans h (by decide)
  · exact UInt32.le_trans h (by decide)
  · simp only [List.mem_cons, List.not_mem_nil, or_false] at h
    rcases h with rfl | rfl | rfl | rfl | rfl <;> decide

/-- A letter is no white space. -/
lemma IsLetter.not_isBlank {c : Char} (h : IsLetter c) : Text.isBlank c = false := by
  have hrange : 97 ≤ c.toNat ∧ c.toNat ≤ 122 ∨ 65 ≤ c.toNat ∧ c.toNat ≤ 90 := h
  simp only [Text.isBlank, Bool.or_eq_false_iff, Bool.and_eq_false_imp, decide_eq_true_eq,
    decide_eq_false_iff_not, not_le, beq_eq_false_iff_ne, ne_eq]
  omega

/-! ### Denominations -/

/-- **The check of a denomination** decides the grammar, though it counts bytes. -/
theorem isDenom_iff (denom : String) : Params.isDenom denom = true ↔ IsDenomination denom := by
  rw [Params.isDenom, IsDenomination]
  cases hchars : denom.toList with
  | nil => simp
  | cons first rest =>
      simp only [Bool.and_eq_true, decide_eq_true_eq, isAlpha_iff, List.all_eq_true,
        isDenomChar_iff, List.cons.injEq]
      have hsize (hfirst : IsLetter first) (hrest : ∀ c ∈ rest, IsDenomLetter c) :
          denom.utf8ByteSize = rest.length + 1 := by
        have hall : ∀ c ∈ denom.toList, c.val ≤ 127 := by
          rw [hchars]
          exact List.forall_mem_cons.2 ⟨IsDenomLetter.val_le (.inl hfirst),
            fun c hc => (hrest c hc).val_le⟩
        rw [Text.utf8ByteSize_eq_length hall, hchars, List.length_cons]
      constructor
      · rintro ⟨⟨⟨hfirst, hlow⟩, hhigh⟩, hrest⟩
        rw [hsize hfirst hrest] at hlow hhigh
        exact ⟨first, rest, ⟨rfl, rfl⟩, hfirst, by omega, by omega, hrest⟩
      · rintro ⟨_, _, ⟨rfl, rfl⟩, hfirst, hlow, hhigh, hrest⟩
        rw [hsize hfirst hrest]
        exact ⟨⟨⟨hfirst, by omega⟩, by omega⟩, hrest⟩

/-- A denomination is not blank. -/
lemma IsDenomination.trim_ne_nil {denom : String} (h : IsDenomination denom) :
    Text.trim denom.toList ≠ [] := by
  obtain ⟨first, rest, hchars, hfirst, -⟩ := h
  intro hblank
  obtain ⟨lead, trail, hlead, htrail, hparts⟩ := (Text.trim_eq_iff (by simp) (by simp)).1 hblank
  have hmem : first ∈ lead ++ [] ++ trail := by
    rw [← hparts, hchars]
    exact List.mem_cons_self ..
  have hin : Text.isBlank first = true := by
    rw [List.append_nil, List.mem_append] at hmem
    exact hmem.elim (hlead first) (htrail first)
  rw [hfirst.not_isBlank] at hin
  cases hin

namespace Params

/-- Parameters that a subsidy can be computed with: what is minted is a denomination, the
halving interval is positive, the goal is above 0 and at most 1, and there is a block a
year. -/
structure Usable (p : Params) : Prop where
  denom : IsDenomination p.mintDenom
  interval : 0 < p.subsidyHalvingInterval.raw
  goal : 0 < p.goalBonded.raw
  goal_le : p.goalBonded.raw ≤ Dec.one.raw
  blocks : 0 < p.blocksPerYear

lemma validateMintDenom_eq_ok_iff (denom : String) :
    validateMintDenom denom = .ok () ↔ IsDenomination denom := by
  rw [← isDenom_iff, validateMintDenom, validateDenom]
  split
  · next hblank =>
      refine ⟨nofun, fun h => absurd (List.isEmpty_iff.1 hblank) ?_⟩
      exact ((isDenom_iff denom).1 h).trim_ne_nil
  · split <;> simp_all

lemma validateInterval_eq_ok_iff (interval : Dec) :
    validateInterval interval = .ok () ↔ 0 < interval.raw := by
  rw [validateInterval, Dec.isNegative, Dec.isZero]
  split_ifs <;> simp_all <;> omega

lemma validateGoal_eq_ok_iff (goal : Dec) :
    validateGoal goal = .ok () ↔ 0 < goal.raw ∧ goal.raw ≤ Dec.one.raw := by
  rw [validateGoal, Dec.isPositive]
  split_ifs <;> simp_all

/-- A check that goes on with another one passes where both do. -/
lemma check_bind_eq_ok_iff {r s : Except ParameterFault Unit} :
    (r >>= fun _ => s) = .ok () ↔ r = .ok () ∧ s = .ok () := by
  rcases r with f | ⟨⟩
  · exact ⟨nofun, fun h => nomatch h.1⟩
  · exact ⟨fun h => ⟨rfl, h⟩, fun h => h.2⟩

/-- **The check of parameters** accepts just the usable ones. -/
theorem validate_eq_ok_iff (p : Params) : p.validate = .ok () ↔ p.Usable := by
  have hblocks : (if p.blocksPerYear = 0 then .error .zeroBlocksPerYear else .ok () :
      Except ParameterFault Unit) = .ok () ↔ 0 < p.blocksPerYear := by
    rw [UInt64.pos_iff_ne_zero]
    split <;> simp_all
  rw [validate, check_bind_eq_ok_iff, check_bind_eq_ok_iff, check_bind_eq_ok_iff,
    validateMintDenom_eq_ok_iff, validateInterval_eq_ok_iff, validateGoal_eq_ok_iff, hblocks]
  exact ⟨fun ⟨hdenom, hinterval, ⟨hgoal, hle⟩, hblocks⟩ => ⟨hdenom, hinterval, hgoal, hle, hblocks⟩,
    fun h => ⟨h.denom, h.interval, ⟨h.goal, h.goal_le⟩, h.blocks⟩⟩

/-- The default parameters are usable. -/
example : default.Usable := (validate_eq_ok_iff default).1 rfl

end Params

end Mintage
