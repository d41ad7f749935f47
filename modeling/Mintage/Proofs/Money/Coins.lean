import Mintage.Money.Coins
import Mintage.Proofs.Data.OrderedMap

/-!
What sums and differences of coins hold of each denomination.

* `amountOf_add?`, `amountOf_sub?`: a sum has the two amounts together, and a difference
  is what has to be added to the coins taken away to get the ones that were there.
* `isSome_add?_iff`: two sets of coins have a sum exactly when no denomination has more
  than 64 bits in it. `isSome_sub?_iff`: they have a difference exactly when the second one
  has no more of any denomination than the first.
* `Proper`: no amount in a set of coins is zero. Adding proper coins to proper ones and
  taking them away again gives the same set (`Proper.sub?_of_add?`).
-/

namespace Mintage

lemma addAmounts?_eq_some_iff {a b n : UInt64} :
    addAmounts? a b = some n ↔ n.toNat = a.toNat + b.toNat :=
  Word.ofNat?_eq_some_iff

namespace Coins

/-- The amounts of coins, as plain numbers. -/
def amounts (c : Coins) (denom : String) : Nat := (c.amountOf denom).toNat

/-- How much of a denomination a list of entries holds. -/
def amountIn (l : List (String × UInt64)) (denom : String) : UInt64 :=
  (OrderedMap.find? denom l).getD 0

lemma amountIn_cons_self (d : String) (n : UInt64) (l : List (String × UInt64)) :
    amountIn ((d, n) :: l) d = n := by
  rw [amountIn, OrderedMap.find?, if_neg fun h => h.elim Std.lt_irrefl Std.lt_irrefl]
  rfl

lemma amountIn_cons_ne {d e : String} (n : UInt64) (l : List (String × UInt64)) (h : d ≠ e) :
    amountIn ((d, n) :: l) e = amountIn l e := by
  rw [amountIn, OrderedMap.find?, if_pos, amountIn]
  exact Decidable.byContradiction fun hn => h (OrderedMap.eq_of_not_lt hn).symm

/-- The head of a sorted list holds all that the list has of its denomination. -/
lemma amountIn_of_sorted {d : String} {n : UInt64} {l : List (String × UInt64)}
    (h : ((d, n) :: l).Pairwise fun a b => a.1 < b.1) : amountIn l d = 0 := by
  rw [amountIn, OrderedMap.find?_eq_none_of_lt (List.pairwise_cons.1 h).1]
  rfl

@[simp] lemma amountOf_zero (d : String) : zero.amountOf d = 0 := rfl

lemma amountOf_erase (c : Coins) (d e : String) :
    amountOf (c.erase d) e = if d = e then 0 else c.amountOf e := by
  unfold amountOf
  rw [OrderedMap.get?_erase]
  by_cases h : d = e
  · subst h
    rw [if_neg fun h => h.elim Std.lt_irrefl Std.lt_irrefl, if_pos rfl]
    rfl
  · rw [if_pos (Decidable.byContradiction fun hn => h (OrderedMap.eq_of_not_lt hn).symm), if_neg h]

/-- One coin holds its amount of its own denomination, and nothing else. -/
lemma amountOf_ofCoin (c : Coin) (d : String) :
    (ofCoin c).amountOf d = if c.denom = d then c.amount else 0 := by
  rw [ofCoin, Coin.isZero]
  split
  · next h => simp [beq_iff_eq.1 h]
  · rw [amountOf_insert, amountOf_zero]

/-- Without coins there is nothing of any denomination. -/
lemma amountOf_of_isEmpty {c : Coins} (h : c.isEmpty = true) (d : String) : c.amountOf d = 0 := by
  rw [amountOf, OrderedMap.get?, List.isEmpty_iff.1 h]
  rfl

/-! ### Sums -/

lemma amountOf_addEntries? {l : List (String × UInt64)} (hl : l.Pairwise fun a b => a.1 < b.1)
    {c s : Coins} (h : addEntries? c l = some s) (d : String) :
    (s.amountOf d).toNat = (c.amountOf d).toNat + (amountIn l d).toNat := by
  induction l generalizing c with
  | nil =>
      obtain rfl := Option.some_inj.1 h
      rfl
  | cons e r ih =>
      obtain ⟨f, m⟩ := e
      rw [addEntries?] at h
      split at h
      · next n hn =>
          have hrest := ih (List.pairwise_cons.1 hl).2 h
          rw [amountOf_insert] at hrest
          by_cases hd : f = d
          · subst hd
            rw [if_pos rfl, amountIn_of_sorted hl, addAmounts?_eq_some_iff.1 hn] at hrest
            rw [hrest, amountIn_cons_self]
            rfl
          · rw [hrest, if_neg hd, amountIn_cons_ne m r hd]
      · cases h

/-- **A sum** has the two amounts of every denomination together. -/
theorem amountOf_add? {a b s : Coins} (h : a.add? b = some s) (d : String) :
    (s.amountOf d).toNat = (a.amountOf d).toNat + (b.amountOf d).toNat :=
  amountOf_addEntries? b.sorted h d

lemma isSome_addEntries? {l : List (String × UInt64)}
    (hl : l.Pairwise fun a b => a.1 < b.1) {c : Coins}
    (h : ∀ d, (c.amountOf d).toNat + (amountIn l d).toNat < UInt64.size) :
    (addEntries? c l).isSome := by
  induction l generalizing c with
  | nil => rfl
  | cons e r ih =>
      obtain ⟨f, m⟩ := e
      have hf := h f
      rw [amountIn_cons_self] at hf
      have hn : addAmounts? (c.amountOf f) m
          = some (UInt64.ofNat ((c.amountOf f).toNat + m.toNat)) :=
        addAmounts?_eq_some_iff.2 (UInt64.toNat_ofNat_of_lt' hf)
      rw [addEntries?, hn]
      refine ih (List.pairwise_cons.1 hl).2 fun d => ?_
      rw [amountOf_insert]
      by_cases hd : f = d
      · subst hd
        rw [if_pos rfl, amountIn_of_sorted hl]
        exact UInt64.toNat_lt_size _
      · have hrest := h d
        rw [amountIn_cons_ne m r hd] at hrest
        rwa [if_neg hd]

/-- **Two sets of coins have a sum** exactly when the sum of each denomination fits 64
bits. -/
theorem isSome_add?_iff {a b : Coins} :
    (a.add? b).isSome ↔ ∀ d, (a.amountOf d).toNat + (b.amountOf d).toNat < UInt64.size := by
  refine ⟨fun h d => ?_, fun h => isSome_addEntries? b.sorted h⟩
  obtain ⟨s, hs⟩ := Option.isSome_iff_exists.1 h
  rw [← amountOf_add? hs d]
  exact UInt64.toNat_lt_size _

/-! ### Differences -/

/-- Taking away one entry after the other: the first one takes its amount, of which there
must be enough. -/
lemma subEntries?_cons {f : String} {m : UInt64} {r : List (String × UInt64)} {c s : Coins}
    (h : subEntries? c ((f, m) :: r) = some s) :
    m ≤ c.amountOf f ∧ ∃ left : Coins, subEntries? left r = some s ∧
      ∀ d, left.amountOf d = if f = d then c.amountOf f - m else c.amountOf d := by
  simp only [subEntries?] at h
  split at h
  · cases h
  · next hle =>
      refine ⟨UInt64.not_lt.1 hle, ?_⟩
      split at h
      · next heq =>
          refine ⟨_, h, fun d => ?_⟩
          rw [amountOf_erase, heq, UInt64.sub_self]
      · exact ⟨_, h, fun d => amountOf_insert ..⟩

lemma amountOf_subEntries? {l : List (String × UInt64)} (hl : l.Pairwise fun a b => a.1 < b.1)
    {c s : Coins} (h : subEntries? c l = some s) (d : String) :
    (s.amountOf d).toNat + (amountIn l d).toNat = (c.amountOf d).toNat := by
  induction l generalizing c with
  | nil =>
      obtain rfl := Option.some_inj.1 h
      rfl
  | cons e r ih =>
      obtain ⟨f, m⟩ := e
      obtain ⟨hm, left, hleft, hamount⟩ := subEntries?_cons h
      have hrest := ih (List.pairwise_cons.1 hl).2 hleft
      rw [hamount d] at hrest
      by_cases hd : f = d
      · -- the entries after this one hold nothing of its denomination, so what is left
        -- of it stays
        subst hd
        have hle := UInt64.le_iff_toNat_le.1 hm
        rw [if_pos rfl, amountIn_of_sorted hl, UInt64.toNat_zero, UInt64.toNat_sub_of_le _ _ hm]
          at hrest
        rw [amountIn_cons_self]
        omega
      · rw [amountIn_cons_ne m r hd, hrest, if_neg hd]

/-- **A difference** and the coins taken away are together the coins that were there. -/
theorem amountOf_sub? {a b s : Coins} (h : a.sub? b = some s) (d : String) :
    (s.amountOf d).toNat + (b.amountOf d).toNat = (a.amountOf d).toNat :=
  amountOf_subEntries? b.sorted h d

/-- There is as much of every denomination in `held` as in the coins. -/
def Within (c held : Coins) : Prop := ∀ d, c.amountOf d ≤ held.amountOf d

lemma isSome_subEntries? {l : List (String × UInt64)} (hl : l.Pairwise fun a b => a.1 < b.1)
    {c : Coins} (h : ∀ d, amountIn l d ≤ c.amountOf d) : (subEntries? c l).isSome := by
  induction l generalizing c with
  | nil => rfl
  | cons e r ih =>
      obtain ⟨f, m⟩ := e
      have hf := h f
      rw [amountIn_cons_self] at hf
      -- whatever is left of this entry's denomination, the entries after it ask for none of it
      have hrest {left : Coins}
          (hleft : ∀ d, f ≠ d → left.amountOf d = c.amountOf d) (d : String) :
          amountIn r d ≤ left.amountOf d := by
        by_cases hd : f = d
        · subst hd
          rw [amountIn_of_sorted hl]
          exact UInt64.zero_le
        · rw [hleft d hd, ← amountIn_cons_ne m r hd]
          exact h d
      simp only [subEntries?, if_neg (UInt64.not_lt.2 hf)]
      split
      · exact ih (List.pairwise_cons.1 hl).2 (hrest fun d hd => by rw [amountOf_erase, if_neg hd])
      · exact ih (List.pairwise_cons.1 hl).2 (hrest fun d hd => by rw [amountOf_insert, if_neg hd])

/-- **Coins can be taken away** exactly where there is as much of every denomination. -/
theorem isSome_sub?_iff {a b : Coins} : (a.sub? b).isSome ↔ b.Within a := by
  refine ⟨fun h d => ?_, fun h => isSome_subEntries? b.sorted h⟩
  obtain ⟨s, hs⟩ := Option.isSome_iff_exists.1 h
  rw [UInt64.le_iff_toNat_le, ← amountOf_sub? hs d]
  exact Nat.le_add_left _ _

/-! ### Coins without amounts of zero -/

/-- No denomination stands in the coins with an amount of zero. -/
def Proper (c : Coins) : Prop := ∀ d, c.get? d ≠ some 0

namespace Proper

variable {a b c s t : Coins}

lemma get? (hc : c.Proper) (d : String) :
    c.get? d = if c.amountOf d = 0 then none else some (c.amountOf d) := by
  have hd := hc d
  rw [amountOf]
  cases hget : c.get? d with
  | none => rfl
  | some n =>
      rw [hget] at hd
      exact (if_neg fun hn => hd (congrArg some hn)).symm

/-- Proper coins with the same amounts are the same coins. -/
lemma ext (ha : a.Proper) (hb : b.Proper) (h : ∀ d, a.amountOf d = b.amountOf d) : a = b := by
  refine OrderedMap.ext fun d => ?_
  rw [ha.get? d, hb.get? d, h d]

lemma insert (hc : c.Proper) {n : UInt64} (hn : n ≠ 0) (d : String) :
    Proper (c.insert d n) := by
  intro e
  by_cases hd : d = e
  · subst hd
    rw [OrderedMap.get?_insert_self]
    exact fun h => hn (Option.some.inj h)
  · rw [OrderedMap.get?_insert_ne _ _ hd]
    exact hc e

lemma erase (hc : c.Proper) (d : String) : Proper (c.erase d) := by
  intro e
  rw [OrderedMap.get?_erase]
  split
  · exact hc e
  · exact (Option.some_ne_none 0).symm

lemma zero : Coins.zero.Proper := fun _ => (Option.some_ne_none 0).symm

lemma ofCoin (c : Coin) : (Coins.ofCoin c).Proper := by
  rw [Coins.ofCoin, Coin.isZero]
  split
  · exact zero
  · next h => exact zero.insert (fun hn => h (beq_iff_eq.2 hn)) c.denom

lemma ne_zero_of_mem (hc : c.Proper) {e : String × UInt64} (he : e ∈ c.toList) : e.2 ≠ 0 := by
  intro h
  exact hc e.1 (OrderedMap.mem_toList_iff.1 (h ▸ he))

lemma addEntries? {l : List (String × UInt64)} (hl : ∀ e ∈ l, e.2 ≠ 0) (hc : c.Proper)
    (h : Coins.addEntries? c l = some s) : s.Proper := by
  induction l generalizing c with
  | nil =>
      obtain rfl := Option.some_inj.1 h
      exact hc
  | cons e r ih =>
      rw [Coins.addEntries?] at h
      split at h
      · next n hn =>
          refine ih (fun f hf => hl f (List.mem_cons_of_mem _ hf)) (hc.insert ?_ e.1) h
          rintro rfl
          have hsum := addAmounts?_eq_some_iff.1 hn
          have he := mt UInt64.toNat_inj.1 (hl e (List.mem_cons_self ..))
          simp only [UInt64.toNat_zero] at hsum he
          omega
      · cases h

lemma add? (ha : a.Proper) (hb : b.Proper) (h : a.add? b = some s) : s.Proper :=
  addEntries? (fun _ he => hb.ne_zero_of_mem he) ha h

lemma subEntries? {l : List (String × UInt64)} (hc : c.Proper)
    (h : Coins.subEntries? c l = some s) : s.Proper := by
  induction l generalizing c with
  | nil =>
      obtain rfl := Option.some_inj.1 h
      exact hc
  | cons e r ih =>
      simp only [Coins.subEntries?] at h
      split at h
      · cases h
      · split at h
        · exact ih (hc.erase e.1) h
        · next hne =>
            have hleft : amountOf c e.1 - e.2 ≠ 0 := by grind
            exact ih (hc.insert hleft e.1) h

/-- **Proper coins that are added and taken away again** leave the coins as they were. -/
theorem sub?_of_add? (ha : a.Proper) (hb : b.Proper) (hs : a.add? b = some s)
    (ht : s.sub? b = some t) : t = a := by
  refine ext (subEntries? (ha.add? hb hs) ht) ha fun d => UInt64.toNat_inj.1 ?_
  have hadd := amountOf_add? hs d
  have hsub := amountOf_sub? ht d
  omega

end Proper

end Coins

end Mintage
