/-!
Finite maps kept as a list of entries in strictly ascending order of their keys. The
list is the map: two maps are equal exactly when they have the same entries, and walking
one visits its keys in order.

* `get?_insert`, `get?_erase`, `get?_filter`: what each change does to every look-up.
* `mem_toList_iff`: an entry stands in the list exactly when looking its key up gives
  its value.
* `ext`: two maps that agree on every look-up are equal.
-/

namespace Mintage

/-- A finite map, as its entries in strictly ascending order of their keys. -/
structure OrderedMap (κ α : Type) [LT κ] where
  toList : List (κ × α)
  sorted : toList.Pairwise fun a b => a.1 < b.1

namespace OrderedMap

variable {κ α : Type} [LT κ] [DecidableLT κ]

instance [DecidableEq κ] [DecidableEq α] : DecidableEq (OrderedMap κ α) := fun a b =>
  if h : a.toList = b.toList then
    isTrue (by cases a; cases b; simp_all)
  else
    isFalse fun e => h (e ▸ rfl)

/-! ### Entries -/

/-- Puts an entry at its place in a list, taking the place of one with the same key. -/
def insertEntry (k : κ) (v : α) : List (κ × α) → List (κ × α)
  | [] => [(k, v)]
  | e :: r =>
      if k < e.1 then (k, v) :: e :: r
      else if e.1 < k then e :: insertEntry k v r
      else (k, v) :: r

/-- The value of the first entry with the given key. -/
def find? (k : κ) : List (κ × α) → Option α
  | [] => none
  | e :: r => if k < e.1 ∨ e.1 < k then find? k r else some e.2

theorem mem_insertEntry {k : κ} {v : α} {e : κ × α} {l : List (κ × α)} (h : e ∈ insertEntry k v l) :
    e = (k, v) ∨ e ∈ l := by
  induction l with
  | nil => simp_all [insertEntry]
  | cons d r ih =>
      rw [insertEntry] at h
      split at h
      · simpa using h
      · split at h
        · rcases List.mem_cons.1 h with rfl | h
          · exact .inr (List.mem_cons_self ..)
          · exact (ih h).imp_right (List.mem_cons_of_mem _)
        · rcases List.mem_cons.1 h with rfl | h
          · exact .inl rfl
          · exact .inr (List.mem_cons_of_mem _ h)

/-! ### Operations -/

/-- The map without entries. -/
def empty : OrderedMap κ α :=
  ⟨[], .nil⟩

instance : Inhabited (OrderedMap κ α) := ⟨empty⟩

/-- The value stored under a key. -/
def get? (m : OrderedMap κ α) (k : κ) : Option α :=
  find? k m.toList

/-- The map that also holds the values satisfying a test on their keys and values. -/
def filter (p : κ → α → Bool) (m : OrderedMap κ α) : OrderedMap κ α :=
  ⟨m.toList.filter fun e => p e.1 e.2, m.sorted.filter _⟩

/-- The map with one key's entry taken out. -/
def erase (m : OrderedMap κ α) (k : κ) : OrderedMap κ α :=
  m.filter fun j _ => decide (j < k ∨ k < j)

/-- The keys in ascending order. -/
def keys (m : OrderedMap κ α) : List κ :=
  m.toList.map (·.1)

/-- The number of entries. -/
def size (m : OrderedMap κ α) : Nat :=
  m.toList.length

/-- Whether the map has no entries. -/
def isEmpty (m : OrderedMap κ α) : Bool :=
  m.toList.isEmpty

@[simp] theorem get?_empty (j : κ) : (empty : OrderedMap κ α).get? j = none := rfl

section Linear

variable [LE κ] [Std.IsLinearOrder κ] [Std.LawfulOrderLT κ]

/-- An entry that is new to a key stays in order with everything around it. -/
theorem sorted_insertEntry (k : κ) (v : α) {l : List (κ × α)}
    (h : l.Pairwise fun a b => a.1 < b.1) : (insertEntry k v l).Pairwise fun a b => a.1 < b.1 := by
  induction l with
  | nil => simp [insertEntry]
  | cons d r ih =>
      obtain ⟨hd, hr⟩ := List.pairwise_cons.1 h
      rw [insertEntry]
      split
      · next hk =>
          refine List.pairwise_cons.2 ⟨fun e he => ?_, h⟩
          rcases List.mem_cons.1 he with rfl | he
          · exact hk
          · exact Std.lt_trans hk (hd e he)
      · next hk =>
          split
          · next hk' =>
              refine List.pairwise_cons.2 ⟨fun e he => ?_, ih hr⟩
              rcases mem_insertEntry he with rfl | he
              · exact hk'
              · exact hd e he
          · next hk' =>
              have : k = d.1 := by
                rcases Std.lt_trichotomy k d.1 with h | h | h
                · exact absurd h hk
                · exact h
                · exact absurd h hk'
              exact List.pairwise_cons.2 ⟨fun e he => this ▸ hd e he, hr⟩

/-- The map with `v` stored under `k`, in place of what was there. -/
def insert (m : OrderedMap κ α) (k : κ) (v : α) : OrderedMap κ α :=
  ⟨insertEntry k v m.toList, sorted_insertEntry k v m.sorted⟩

/-- The map built by storing entries in order; a later one takes the place of an earlier
one. -/
def ofList (l : List (κ × α)) : OrderedMap κ α :=
  l.foldl (fun m e => m.insert e.1 e.2) empty

/-! ### Look-ups -/

theorem find?_insertEntry (k j : κ) (v : α) (l : List (κ × α)) :
    find? j (insertEntry k v l) = if k < j ∨ j < k then find? j l else some v := by
  induction l with
  | nil => simp [insertEntry, find?, or_comm]
  | cons d r ih =>
      rw [insertEntry]
      split
      · rw [find?]; simp only [or_comm]
      · next h₁ =>
          split
          · next h₂ =>
              rw [find?, find?, ih]
              by_cases hj : j < d.1 ∨ d.1 < j
              · simp [hj]
              · rw [if_neg hj, if_neg hj, if_pos]
                rcases Std.lt_trichotomy j d.1 with h | h | h
                · exact absurd (.inl h) hj
                · exact .inr (h ▸ h₂)
                · exact absurd (.inr h) hj
          · next h₂ =>
              have hk : k = d.1 := by
                rcases Std.lt_trichotomy k d.1 with h | h | h
                · exact absurd h h₁
                · exact h
                · exact absurd h h₂
              subst hk
              rw [find?, find?]
              by_cases hj : j < d.1 ∨ d.1 < j
              · rw [if_pos hj, if_pos hj.symm, if_pos hj]
              · rw [if_neg hj, if_neg fun h => hj h.symm]

theorem get?_insert (m : OrderedMap κ α) (k j : κ) (v : α) :
    (m.insert k v).get? j = if k < j ∨ j < k then m.get? j else some v :=
  find?_insertEntry k j v m.toList

@[simp] theorem get?_insert_self (m : OrderedMap κ α) (k : κ) (v : α) :
    (m.insert k v).get? k = some v := by
  rw [get?_insert, if_neg]
  exact fun h => h.elim Std.lt_irrefl Std.lt_irrefl

theorem get?_insert_ne (m : OrderedMap κ α) {k j : κ} (v : α) (h : k ≠ j) :
    (m.insert k v).get? j = m.get? j := by
  rw [get?_insert, if_pos]
  rcases Std.lt_trichotomy k j with hk | hk | hk
  · exact .inl hk
  · exact absurd hk h
  · exact .inr hk

theorem find?_eq_some_iff {l : List (κ × α)} (hl : l.Pairwise fun a b => a.1 < b.1)
    {k : κ} {v : α} : find? k l = some v ↔ (k, v) ∈ l := by
  induction l with
  | nil => simp [find?]
  | cons d r ih =>
      obtain ⟨hd, hr⟩ := List.pairwise_cons.1 hl
      rw [find?, List.mem_cons]
      split
      · next h =>
          rw [ih hr]
          refine ⟨.inr, fun hm => hm.elim (fun he => ?_) id⟩
          subst he
          exact absurd h fun h => h.elim Std.lt_irrefl Std.lt_irrefl
      · next h =>
          have hk : k = d.1 := by
            rcases Std.lt_trichotomy k d.1 with h' | h' | h'
            · exact absurd (.inl h') h
            · exact h'
            · exact absurd (.inr h') h
          subst hk
          constructor
          · rintro ⟨rfl⟩
            exact .inl rfl
          · rintro (he | hm)
            · rw [← he]
            · exact absurd (hd _ hm) Std.lt_irrefl

theorem mem_toList_iff {m : OrderedMap κ α} {k : κ} {v : α} :
    (k, v) ∈ m.toList ↔ m.get? k = some v :=
  (find?_eq_some_iff m.sorted).symm

theorem get?_filter (m : OrderedMap κ α) (p : κ → α → Bool) (k : κ) :
    (m.filter p).get? k = (m.get? k).filter (p k) := by
  apply Option.ext
  intro v
  rw [← mem_toList_iff, Option.filter_eq_some_iff, ← mem_toList_iff]
  simp [filter]

theorem get?_erase (m : OrderedMap κ α) (k j : κ) :
    (m.erase k).get? j = if j < k ∨ k < j then m.get? j else none := by
  rw [erase, get?_filter]
  by_cases h : j < k ∨ k < j <;> cases m.get? j <;> simp [h]

/-- Two maps that agree on every look-up are equal. -/
theorem ext {m n : OrderedMap κ α} (h : ∀ k, m.get? k = n.get? k) : m = n := by
  have key : ∀ {l r : List (κ × α)}, l.Pairwise (fun a b => a.1 < b.1) →
    r.Pairwise (fun a b => a.1 < b.1) →
      (∀ k, find? k l = find? k r) → l = r := by
    intro l
    induction l with
    | nil =>
        intro r _ hr h
        cases r with
        | nil => rfl
        | cons e r => exact absurd (h e.1) (by simp [find?, Std.lt_irrefl])
    | cons d l ih =>
        intro r hl hr h
        cases r with
        | nil => exact absurd (h d.1) (by simp [find?, Std.lt_irrefl])
        | cons e r =>
            obtain ⟨hd, hl'⟩ := List.pairwise_cons.1 hl
            obtain ⟨he, hr'⟩ := List.pairwise_cons.1 hr
            -- each head stands in the other list, so neither key is below the other
            have hde : d ∈ e :: r := by
              have : find? d.1 (d :: l) = some d.2 :=
                (find?_eq_some_iff hl).2 (List.mem_cons_self ..)
              exact (find?_eq_some_iff hr).1 (h d.1 ▸ this)
            have hed : e ∈ d :: l := by
              have : find? e.1 (e :: r) = some e.2 :=
                (find?_eq_some_iff hr).2 (List.mem_cons_self ..)
              exact (find?_eq_some_iff hl).1 (h e.1 ▸ this)
            have heq : d = e := by
              rcases List.mem_cons.1 hde with h₁ | h₁
              · exact h₁
              · rcases List.mem_cons.1 hed with h₂ | h₂
                · exact h₂.symm
                · exact absurd (Std.lt_trans (he _ h₁) (hd _ h₂)) Std.lt_irrefl
            subst heq
            rw [ih hl' hr']
            intro k
            by_cases hk : k < d.1 ∨ d.1 < k
            · have := h k
              rwa [find?, find?, if_pos hk, if_pos hk] at this
            · have hkd : k = d.1 := by
                rcases Std.lt_trichotomy k d.1 with h' | h' | h'
                · exact absurd (.inl h') hk
                · exact h'
                · exact absurd (.inr h') hk
              -- the shared head's key occurs in neither tail
              have notail : ∀ {t : List (κ × α)}, (∀ x ∈ t, d.1 < x.1) →
                t.Pairwise (fun a b => a.1 < b.1) →
                  find? k t = none := by
                intro t ht hs
                cases hf : find? k t with
                | none => rfl
                | some v =>
                    have := ht _ ((find?_eq_some_iff hs).1 hf)
                    exact absurd (hkd ▸ this) Std.lt_irrefl
              rw [notail hd hl', notail he hr']
  have := key m.sorted n.sorted h
  cases m
  cases n
  simp_all

end Linear

end OrderedMap

end Mintage
