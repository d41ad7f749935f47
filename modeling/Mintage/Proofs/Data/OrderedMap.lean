import Mathlib.Algebra.Order.Ring.Nat
import Mathlib.Tactic.Lemma
import Mintage.Data.OrderedMap

/-!
Sums over the entries of a finite map, and maps that are built by storing entries one
after the other.

* `sumBy_insert`: storing a value adds its weight, and takes away the weight of the
  value that was there.
* `sumBy_filter`: the entries that pass a test, added up.
* `get?_foldl_insert`, `ofList_toList`: what a run of stored entries leaves under a key;
  a map is rebuilt from its own entries.
-/

namespace Mintage.OrderedMap

variable {κ α : Type} [LT κ]

/-- The weights of all entries of a map, added up. -/
def sumBy (w : κ → α → Nat) (m : OrderedMap κ α) : Nat :=
  (m.toList.map fun e => w e.1 e.2).sum

/-- The sum over the entries that pass a test. -/
lemma sumBy_filter (w : κ → α → Nat) (p : κ → α → Bool) (m : OrderedMap κ α) :
    (m.filter p).sumBy w = m.sumBy fun k v => if p k v then w k v else 0 := by
  show ((m.toList.filter _).map _).sum = (m.toList.map _).sum
  induction m.toList with
  | nil => rfl
  | cons d r ih =>
      rw [List.filter_cons]
      split
      · next h => simp only [List.map_cons, List.sum_cons, h, if_true, ih]
      · next h => simp only [List.map_cons, List.sum_cons, h, if_false, Nat.zero_add, ih,
          Bool.false_eq_true]

variable [DecidableLT κ]

/-- A key below all keys of a list does not occur in it. -/
lemma find?_eq_none_of_lt {k : κ} {l : List (κ × α)} (h : ∀ e ∈ l, k < e.1) : find? k l = none := by
  induction l with
  | nil => rfl
  | cons d r ih =>
      rw [find?, if_pos (.inl (h d (List.mem_cons_self ..)))]
      exact ih fun e he => h e (List.mem_cons_of_mem _ he)

section Linear

variable [LE κ] [Std.IsLinearOrder κ] [Std.LawfulOrderLT κ]

omit [DecidableLT κ] in
lemma eq_of_not_lt {j k : κ} (h : ¬ (j < k ∨ k < j)) : j = k := by
  rcases Std.lt_trichotomy j k with h' | h' | h'
  · exact absurd (.inl h') h
  · exact h'
  · exact absurd (.inr h') h

/-! ### Sums -/

/-- The sum of the weights in a list of entries, with one more stored. -/
lemma sum_insertEntry (w : κ → α → Nat) (k : κ) (v : α) {l : List (κ × α)}
    (hl : l.Pairwise fun a b => a.1 < b.1) :
    ((insertEntry k v l).map fun e => w e.1 e.2).sum + ((find? k l).elim 0 (w k))
      = (l.map fun e => w e.1 e.2).sum + w k v := by
  induction l with
  | nil => simp [insertEntry, find?]
  | cons d r ih =>
      obtain ⟨hd, hr⟩ := List.pairwise_cons.1 hl
      rw [insertEntry]
      split
      · next hk =>
          have hnone : find? k (d :: r) = none := by
            refine find?_eq_none_of_lt fun e he => ?_
            rcases List.mem_cons.1 he with rfl | he
            · exact hk
            · exact Std.lt_trans hk (hd e he)
          simp only [hnone, List.map_cons, List.sum_cons, Option.elim_none]
          omega
      · next hk =>
          split
          · next hk' =>
              have := ih hr
              rw [find?, if_pos (.inr hk')]
              simp only [List.map_cons, List.sum_cons]
              omega
          · next hk' =>
              obtain rfl : k = d.1 := eq_of_not_lt fun h => h.elim hk hk'
              rw [find?, if_neg fun h => h.elim hk hk']
              simp only [List.map_cons, List.sum_cons, Option.elim_some]
              omega

/-- **Storing a value** adds its weight to the sum, and takes away the weight of what
was there. -/
theorem sumBy_insert (w : κ → α → Nat) (m : OrderedMap κ α) (k : κ) (v : α) :
    (m.insert k v).sumBy w + (m.get? k).elim 0 (w k) = m.sumBy w + w k v :=
  sum_insertEntry w k v m.sorted

/-- Storing a value where neither it nor what was there has any weight leaves the sum as
it is. -/
lemma sumBy_insert_of_zero {w : κ → α → Nat} (m : OrderedMap κ α) {k : κ} (v : α)
    (h : ∀ u, w k u = 0) : (m.insert k v).sumBy w = m.sumBy w := by
  have hs := sumBy_insert w m k v
  cases hg : m.get? k <;>
    simp only [hg, h, Option.elim_none, Option.elim_some, Nat.add_zero] at hs <;> exact hs

/-! ### Runs of stored entries -/

/-- After a run of stored entries the last one for a key counts, and where there is
none, what was there before. -/
lemma get?_foldl_insert [DecidableEq κ] (l : List (κ × α)) (m : OrderedMap κ α) (j : κ) :
    (l.foldl (fun n e => n.insert e.1 e.2) m).get? j
      = ((l.reverse.find? fun e => e.1 = j).map (·.2)).or (m.get? j) := by
  induction l generalizing m with
  | nil => simp
  | cons d r ih =>
      rw [List.foldl_cons, ih, List.reverse_cons, List.find?_append]
      cases hr : r.reverse.find? fun e => e.1 = j with
      | some e => simp
      | none =>
          by_cases hd : d.1 = j
          · subst hd
            simp
          · simp [hd, get?_insert_ne m d.2 hd]

/-- The last entry for a key of a sorted list is the only one. -/
lemma find?_reverse_of_sorted [DecidableEq κ] {l : List (κ × α)}
    (hl : l.Pairwise fun a b => a.1 < b.1) (j : κ) :
    (l.reverse.find? fun e => e.1 = j).map (·.2) = find? j l := by
  refine Option.ext fun v => ?_
  rw [find?_eq_some_iff hl, Option.map_eq_some_iff]
  constructor
  · rintro ⟨e, he, rfl⟩
    have hmem := List.mem_reverse.1 (List.mem_of_find?_eq_some he)
    have hj : e.1 = j := by simpa using List.find?_some he
    exact hj ▸ hmem
  · intro h
    obtain ⟨e, he⟩ := Option.isSome_iff_exists.1
      (List.find?_isSome.2 ⟨(j, v), List.mem_reverse.2 h, by simp⟩ :
        (l.reverse.find? fun e => e.1 = j).isSome)
    have hmem := List.mem_reverse.1 (List.mem_of_find?_eq_some he)
    have hj : e.1 = j := by simpa using List.find?_some he
    refine ⟨e, he, ?_⟩
    -- both entries stand in the list under `j`, so both are what looking `j` up gives
    have h₁ := (find?_eq_some_iff hl).2 h
    have h₂ := (find?_eq_some_iff hl).2 (hj ▸ hmem : (j, e.2) ∈ l)
    exact Option.some_inj.1 (h₂.symm.trans h₁)

/-- A map is rebuilt from its own entries. -/
theorem ofList_toList [DecidableEq κ] (m : OrderedMap κ α) : ofList m.toList = m := by
  refine ext fun j => ?_
  rw [ofList, get?_foldl_insert, find?_reverse_of_sorted m.sorted, get?_empty, Option.or_none]
  rfl

end Linear

end Mintage.OrderedMap
