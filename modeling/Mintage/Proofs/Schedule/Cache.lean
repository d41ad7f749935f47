import Mathlib.Tactic.Lemma
import Mintage.Schedule.Cache

/-!
What noting a finished height and cleaning do to the mints that are still to come.

* `MintCache.processedHeight?_markProcessed`: the last finished height rises to the height
  that is noted, and never falls.
* `MintCache.lt_floor_markProcessed_iff`: the heights below the floor, once one more is noted.
* `MintCache.lookup_markProcessed`, `MintCache.lookup_markProcessed_of_le`: a finished height
  is not served, and the ones above it are as before.
* `MintCache.get?_prune`, `MintCache.lookup_prune`: cleaning drops just the mints up to the
  last finished height, and nothing that could still be served.

The floor cannot rise above the greatest height, so that one is never finished.
-/

namespace Mintage

lemma Word.toNat_max (a b : UInt64) : (max a b).toNat = max a.toNat b.toNat := by
  show (if a ≤ b then b else a).toNat = max a.toNat b.toNat
  split
  · next h =>
      have := UInt64.le_iff_toNat_le.1 h
      omega
  · next h =>
      have := UInt64.lt_iff_toNat_lt.1 (UInt64.not_le.1 h)
      omega

lemma Word.le_min_iff {k a b : UInt64} : k ≤ min a b ↔ k ≤ a ∧ k ≤ b := by
  show k ≤ (if a ≤ b then a else b) ↔ _
  split
  · next h => exact ⟨fun hk => ⟨hk, UInt64.le_trans hk h⟩, And.left⟩
  · next h =>
      have hba := UInt64.le_of_lt (UInt64.not_le.1 h)
      exact ⟨fun hk => ⟨UInt64.le_trans hk hba, hk⟩, And.right⟩

namespace MintCache

variable {c : MintCache} {height k : UInt64}

/-- The last finished height is the one below the floor. -/
lemma processedHeight?_eq_some_iff :
    c.processedHeight? = some k ↔ k.toNat + 1 = c.floor.toNat := by
  rw [processedHeight?]
  split
  · next h => simp [h]
  · next h =>
      have hpos : 1 ≤ c.floor.toNat := by
        have := mt UInt64.toNat_inj.1 h
        simp only [UInt64.toNat_zero] at this
        omega
      have hsub : (c.floor - 1).toNat = c.floor.toNat - 1 :=
        UInt64.toNat_sub_of_le _ _ (UInt64.le_iff_toNat_le.2 hpos)
      rw [Option.some_inj, ← UInt64.toNat_inj, hsub]
      omega

/-- With the floor at the bottom, no height is the last finished one. -/
lemma processedHeight?_of_floor_le (h : ∀ k, c.floor ≤ k) : c.processedHeight? = none := by
  have hzero := UInt64.le_iff_toNat_le.1 (h 0)
  rw [UInt64.toNat_zero] at hzero
  exact if_pos (UInt64.toNat_inj.1 (Nat.le_zero.1 hzero))

/-- The last finished height is the greatest one below the floor. -/
lemma processedHeight?_of_lt_floor_iff {last : UInt64} (h : ∀ k, k < c.floor ↔ k ≤ last) :
    c.processedHeight? = some last := by
  have hbelow := UInt64.lt_iff_toNat_lt.1 ((h last).2 UInt64.le_rfl)
  have hsize := c.floor.toNat_lt_size
  refine processedHeight?_eq_some_iff.2 (Nat.le_antisymm hbelow (Nat.not_lt.1 fun hlt => ?_))
  -- otherwise the height after the last finished one would lie below the floor as well
  have hnext : (Word.next last).toNat = last.toNat + 1 := by
    rw [Word.toNat_next]
    omega
  have := UInt64.le_iff_toNat_le.1 ((h (Word.next last)).1 (UInt64.lt_iff_toNat_lt.2 (by omega)))
  omega

/-! ### Noting a finished height -/

lemma toNat_floor_markProcessed (c : MintCache) (hheight : height.toNat + 1 < UInt64.size) :
    (c.markProcessed height).floor.toNat = max c.floor.toNat (height.toNat + 1) := by
  show (max c.floor (Word.next height)).toNat = _
  rw [Word.toNat_max, Word.toNat_next]
  omega

/-- **The last finished height** rises to the height that is noted, and never falls. -/
theorem processedHeight?_markProcessed (c : MintCache) (hheight : height.toNat + 1 < UInt64.size) :
    (c.markProcessed height).processedHeight?
      = some (c.processedHeight?.elim height fun last => max last height) := by
  rw [processedHeight?_eq_some_iff, toNat_floor_markProcessed c hheight]
  cases hlast : c.processedHeight? with
  | none =>
      have hzero : c.floor = 0 := by simpa [processedHeight?] using hlast
      rw [Option.elim_none, hzero, UInt64.toNat_zero]
      omega
  | some last =>
      have hfloor := processedHeight?_eq_some_iff.1 hlast
      rw [Option.elim_some, Word.toNat_max]
      omega

/-- **The heights below the floor**, once a height is noted, are those that were below it
and those up to the height that is noted, the greatest height apart. -/
theorem lt_floor_markProcessed_iff (c : MintCache) (height k : UInt64) :
    k < (c.markProcessed height).floor ↔
      k < c.floor ∨ k.toNat + 1 < UInt64.size ∧ k ≤ height := by
  show k < max c.floor (Word.next height) ↔ _
  rw [UInt64.lt_iff_toNat_lt, UInt64.lt_iff_toNat_lt, UInt64.le_iff_toNat_le, Word.toNat_max,
    Word.toNat_next]
  omega

/-- A height that is noted lies just below the floor, if the floor was no higher. -/
lemma floor_markProcessed (h : c.floor ≤ Word.next height) :
    (c.markProcessed height).floor = Word.next height := by
  show max c.floor (Word.next height) = Word.next height
  have := UInt64.le_iff_toNat_le.1 h
  rw [← UInt64.toNat_inj, Word.toNat_max]
  omega

/-- Once a height is noted, those up to it are no longer served, the greatest height apart,
and the others as before. -/
lemma lookup_markProcessed (c : MintCache) (height k : UInt64) :
    (c.markProcessed height).lookup k
      = if k.toNat + 1 < UInt64.size ∧ k ≤ height then none else c.lookup k := by
  rw [lookup, lookup]
  simp only [lt_floor_markProcessed_iff]
  by_cases hdone : k.toNat + 1 < UInt64.size ∧ k ≤ height
  · rw [if_pos (.inr hdone), if_pos hdone]
  · simp only [hdone, or_false, if_false]
    rfl

/-- **A finished height** is not served. -/
theorem lookup_markProcessed_of_le (c : MintCache) (hheight : height.toNat + 1 < UInt64.size)
    (hk : k ≤ height) : (c.markProcessed height).lookup k = none := by
  have := UInt64.le_iff_toNat_le.1 hk
  rw [lookup_markProcessed, if_pos ⟨by omega, hk⟩]

/-! ### Cleaning -/

/-- The mints from a height on. -/
lemma get?_keepFrom (floor : UInt64) (mints : OrderedMap UInt64 Mint) (k : UInt64) :
    (keepFrom floor mints).get? k = if floor ≤ k then mints.get? k else none := by
  rw [keepFrom, OrderedMap.get?_filter]
  cases mints.get? k <;> simp [Option.filter]

/-- Cleaning keeps the mints from the floor on. -/
lemma get?_prune (c : MintCache) (k : UInt64) :
    c.prune.mints.get? k = if c.floor ≤ k then c.mints.get? k else none :=
  get?_keepFrom c.floor c.mints k

/-- After cleaning, the mints above the last finished height are all there is. -/
lemma get?_prune_of_processed {last : UInt64} (hlast : c.processedHeight? = some last)
    (k : UInt64) : c.prune.mints.get? k = if last < k then c.mints.get? k else none := by
  have hfloor := processedHeight?_eq_some_iff.1 hlast
  have hkept : c.floor ≤ k ↔ last < k := by
    rw [UInt64.le_iff_toNat_le, UInt64.lt_iff_toNat_lt]
    omega
  simp only [get?_prune, hkept]

/-- Cleaning drops nothing that could still be served. -/
lemma lookup_prune (c : MintCache) (k : UInt64) : c.prune.lookup k = c.lookup k := by
  show (if k < c.floor then none else c.prune.mints.get? k) = _
  rw [lookup, get?_prune]
  split
  · rfl
  · next h => rw [if_pos (UInt64.not_lt.1 h)]

end MintCache

end Mintage
