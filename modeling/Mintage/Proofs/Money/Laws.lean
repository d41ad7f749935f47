import Mathlib.Algebra.Group.Pi.Basic
import Mintage.Error.Value
import Mintage.Proofs.Money.Coins

/-!
The arithmetic of coins that hold no amount of zero. Such coins are what their amounts say,
so sums and differences of coins are those of the amounts, wherever these fit 64 bits.

* `Proper.add?_eq_some_iff`, `Proper.sub?_eq_some_iff`: a sum and a difference are the proper
  coins with the amounts they must have.
* `amountOf_quo`, `proper_quo`: a quotient divides every amount, and drops what reaches zero.
* `proper_laws`: proper coins are a partial monoid that is commutative and cancellative, and
  differences undo its sums.
-/

namespace Mintage.Coins

variable {a b c s : Coins}

lemma amounts_lt (a : Coins) (d : String) : a.amounts d < UInt64.size :=
  UInt64.toNat_lt_size _

@[simp] lemma amounts_zero : zero.amounts = 0 := rfl

/-- Proper coins are determined by their amounts. -/
lemma Proper.eq_of_amounts (ha : a.Proper) (hb : b.Proper) (h : a.amounts = b.amounts) :
    a = b :=
  ha.ext hb fun d => UInt64.toNat_inj.1 (congrFun h d)

/-! ### Sums -/

/-- A sum is missing exactly where some denomination needs more than 64 bits. -/
lemma add?_eq_none_iff : a.add? b = none ↔ ∃ d, UInt64.size ≤ a.amounts d + b.amounts d := by
  have hsome := isSome_add?_iff (a := a) (b := b)
  rw [← Option.not_isSome_iff_eq_none, hsome, not_forall]
  simp only [Nat.not_lt, amounts]

/-- **The sum of proper coins** is the proper coins with both amounts of every
denomination. -/
theorem Proper.add?_eq_some_iff (ha : a.Proper) (hb : b.Proper) :
    a.add? b = some s ↔ s.Proper ∧ s.amounts = a.amounts + b.amounts := by
  constructor
  · intro h
    exact ⟨ha.add? hb h, funext (amountOf_add? h)⟩
  · rintro ⟨hs, hsum⟩
    have hfits (d : String) : a.amounts d + b.amounts d < UInt64.size := by
      rw [← Pi.add_apply, ← hsum]
      exact s.amounts_lt d
    obtain ⟨t, ht⟩ := Option.isSome_iff_exists.1 (isSome_add?_iff.2 hfits)
    have htsum : t.amounts = a.amounts + b.amounts := funext (amountOf_add? ht)
    have hst : t = s := (ha.add? hb ht).eq_of_amounts hs (htsum.trans hsum.symm)
    rw [ht, hst]

lemma Proper.add?_zero (ha : a.Proper) : a.add? Coins.zero = some a :=
  (ha.add?_eq_some_iff .zero).2 ⟨ha, by rw [amounts_zero, add_zero]⟩

lemma Proper.add?_comm (ha : a.Proper) (hb : b.Proper) : a.add? b = b.add? a := by
  refine Option.ext fun s => ?_
  rw [ha.add?_eq_some_iff hb, hb.add?_eq_some_iff ha, add_comm]

/-- Three proper sets of coins, the first two added first: what they have together fits, or
there is no sum. -/
lemma Proper.add?_add?_eq_some_iff (ha : a.Proper) (hb : b.Proper) (hc : c.Proper) :
    ((a.add? b).bind fun t => t.add? c) = some s ↔
      s.Proper ∧ s.amounts = a.amounts + b.amounts + c.amounts := by
  rw [Option.bind_eq_some_iff]
  constructor
  · rintro ⟨t, ht, hs⟩
    obtain ⟨htproper, htsum⟩ := (ha.add?_eq_some_iff hb).1 ht
    rw [htproper.add?_eq_some_iff hc, htsum] at hs
    exact hs
  · rintro ⟨hs, hsum⟩
    -- the first two fit, since even with the third they do
    have hfits (d : String) : a.amounts d + b.amounts d < UInt64.size := by
      have hd : s.amounts d = a.amounts d + b.amounts d + c.amounts d := congrFun hsum d
      have hlt := s.amounts_lt d
      omega
    obtain ⟨t, ht⟩ := Option.isSome_iff_exists.1 (isSome_add?_iff.2 hfits)
    obtain ⟨htproper, htsum⟩ := (ha.add?_eq_some_iff hb).1 ht
    exact ⟨t, ht, (htproper.add?_eq_some_iff hc).2 ⟨hs, by rw [hsum, htsum]⟩⟩

/-- Three proper sets of coins can be grouped either way: both groupings fit and agree, or
neither fits. -/
lemma Proper.add?_assoc (ha : a.Proper) (hb : b.Proper) (hc : c.Proper) :
    ((a.add? b).bind fun t => t.add? c) = (b.add? c).bind fun t => a.add? t := by
  have hflip : ((b.add? c).bind fun t => a.add? t) = (b.add? c).bind fun t => t.add? a := by
    refine Option.bind_congr fun t ht => ?_
    exact ha.add?_comm ((hb.add?_eq_some_iff hc).1 ht).1
  refine Option.ext fun s => ?_
  rw [hflip, ha.add?_add?_eq_some_iff hb hc, hb.add?_add?_eq_some_iff hc ha]
  have hsum : a.amounts + b.amounts + c.amounts = b.amounts + c.amounts + a.amounts := by
    rw [add_assoc, add_comm]
  rw [hsum]

/-- What is added to the same coins with the same result is the same. -/
lemma Proper.add?_right_cancel (ha : a.Proper) (hb : b.Proper) (hc : c.Proper)
    (hac : a.add? c = some s) (hbc : b.add? c = some s) : a = b := by
  have hleft := ((ha.add?_eq_some_iff hc).1 hac).2
  have hright := ((hb.add?_eq_some_iff hc).1 hbc).2
  exact ha.eq_of_amounts hb (add_right_cancel (hleft.symm.trans hright))

/-! ### Differences -/

/-- A difference is missing exactly where more is taken of some denomination than there is. -/
lemma sub?_eq_none_iff : a.sub? b = none ↔ ∃ d, a.amountOf d < b.amountOf d := by
  rw [← Option.not_isSome_iff_eq_none, isSome_sub?_iff, Within, not_forall]
  simp only [UInt64.not_le]

lemma Proper.sub? (ha : a.Proper) (h : a.sub? b = some s) : s.Proper :=
  ha.subEntries? h

/-- **The difference of proper coins** is the proper coins that make up the first ones
together with the second. -/
theorem Proper.sub?_eq_some_iff (ha : a.Proper) :
    a.sub? b = some s ↔ s.Proper ∧ s.amounts + b.amounts = a.amounts := by
  constructor
  · intro h
    exact ⟨ha.sub? h, funext (amountOf_sub? h)⟩
  · rintro ⟨hs, hsum⟩
    have hwithin : b.Within a := fun d => by
      have hle : b.amounts d ≤ a.amounts d := by
        rw [← hsum]
        exact Nat.le_add_left _ _
      exact UInt64.le_iff_toNat_le.2 hle
    obtain ⟨t, ht⟩ := Option.isSome_iff_exists.1 (isSome_sub?_iff.2 hwithin)
    have htsum : t.amounts + b.amounts = a.amounts := funext (amountOf_sub? ht)
    have hst : t = s := (ha.sub? ht).eq_of_amounts hs (add_right_cancel (htsum.trans hsum.symm))
    rw [ht, hst]

/-- Taking proper coins away undoes adding them. -/
lemma Proper.sub?_eq_some_iff_add? (ha : a.Proper) (hb : b.Proper) :
    a.sub? b = some s ↔ s.Proper ∧ s.add? b = some a := by
  rw [ha.sub?_eq_some_iff]
  refine and_congr_right fun hs => ?_
  rw [hs.add?_eq_some_iff hb]
  exact ⟨fun h => ⟨ha, h.symm⟩, fun h => h.2.symm⟩

/-! ### Quotients -/

/-- What a quotient stores of a denomination: the amount divided, unless that is zero. -/
lemma get?_quo_eq_some_iff {n v : UInt64} {d : String} :
    (c.quo n).get? d = some v ↔ v ≠ 0 ∧ ∃ held, c.get? d = some held ∧ held / n = v := by
  rw [quo]
  split
  · next hn =>
      subst hn
      refine iff_of_false (Option.some_ne_none v ·.symm) ?_
      rintro ⟨hv, held, -, rfl⟩
      exact hv (UInt64.div_zero)
  · next hn =>
      rw [← OrderedMap.mem_toList_iff, List.mem_map]
      constructor
      · rintro ⟨⟨e, held⟩, hmem, heq⟩
        obtain ⟨hmem, hne⟩ := List.mem_filter.1 hmem
        obtain ⟨rfl, rfl⟩ := Prod.mk.inj heq
        exact ⟨by simpa using hne, held, OrderedMap.mem_toList_iff.1 hmem, rfl⟩
      · rintro ⟨hv, held, hget, rfl⟩
        refine ⟨(d, held), List.mem_filter.2 ⟨OrderedMap.mem_toList_iff.2 hget, ?_⟩, rfl⟩
        simpa using hv

/-- **A quotient** divides the amount of every denomination and rounds down. -/
theorem amountOf_quo (c : Coins) (n : UInt64) (d : String) :
    (c.quo n).amountOf d = c.amountOf d / n := by
  cases hquo : (c.quo n).get? d with
  | some v =>
      obtain ⟨-, held, hget, rfl⟩ := get?_quo_eq_some_iff.1 hquo
      simp [amountOf, hquo, hget]
  | none =>
      simp only [amountOf, hquo, Option.getD_none]
      cases hget : c.get? d with
      | none => simp
      | some held =>
          by_contra hne
          have hsome := get?_quo_eq_some_iff.2 ⟨Ne.symm hne, held, hget, rfl⟩
          rw [hquo] at hsome
          cases hsome

/-- A quotient holds no amount of zero, whatever is divided. -/
lemma proper_quo (c : Coins) (n : UInt64) : (c.quo n).Proper := fun _ h =>
  (get?_quo_eq_some_iff.1 h).1 rfl

lemma amounts_quo (c : Coins) (n : UInt64) (d : String) :
    (c.quo n).amounts d = c.amounts d / n.toNat := by
  rw [amounts, amountOf_quo, UInt64.toNat_div, amounts]

/-! ### The laws -/

lemma toOption_checkedAdd (a b : Coins) : (a.checkedAdd b).toOption = a.add? b := by
  rw [checkedAdd]
  cases a.add? b <;> rfl

lemma checkedAdd_eq_ok_iff : a.checkedAdd b = .ok s ↔ a.add? b = some s := by
  rw [checkedAdd]
  cases a.add? b <;> simp

lemma checkedAdd_eq_error_iff {e : ValueError} :
    a.checkedAdd b = .error e ↔ a.add? b = none ∧ e = .overflow (.cause ⟨a, b⟩) := by
  rw [checkedAdd]
  cases a.add? b <;> simp [eq_comm]

/-- The laws of checked arithmetic, for three sets of coins. -/
structure Laws (a b c : Coins) : Prop where
  /-- A sum is refused, by the error that names both sides, just where some denomination has
  more than 64 bits in it. -/
  refused (e : ValueError) : a.checkedAdd b = .error e ↔
    e = .overflow (.cause ⟨a, b⟩) ∧ ∃ d, UInt64.size ≤ a.amounts d + b.amounts d
  /-- A sum that is made has the two amounts of every denomination, and no amount of zero. -/
  summed (s : Coins) : a.checkedAdd b = .ok s ↔
    s.Proper ∧ ∀ d, s.amounts d = a.amounts d + b.amounts d
  neutral : a.checkedAdd zero = .ok a
  comm : (a.checkedAdd b).toOption = (b.checkedAdd a).toOption
  /-- Both groupings are refused together, or give the same set. -/
  assoc : ((a.checkedAdd b).toOption.bind fun t => (t.checkedAdd c).toOption)
    = (b.checkedAdd c).toOption.bind fun t => (a.checkedAdd t).toOption
  cancel (s : Coins) : a.checkedAdd c = .ok s → b.checkedAdd c = .ok s → a = b
  /-- A difference is what has to be added to get back to the coins that were there. -/
  difference (s : Coins) : a.sub? b = some s ↔ s.Proper ∧ s.checkedAdd b = .ok a
  /-- There is no difference just where more is taken of some denomination than there is. -/
  missing : a.sub? b = none ↔ ∃ d, a.amountOf d < b.amountOf d
  single (coin : Coin) : (ofCoin coin).Proper
  quotient (n : UInt64) : (a.quo n).Proper
  /-- Equal sets are those that agree on every amount. -/
  extensional : a = b ↔ ∀ d, a.amountOf d = b.amountOf d

/-- **Proper coins are a partial monoid**, commutative and cancellative, whose sums are taken
apart again by differences. All operations lead to proper coins, and these are equal just
where their amounts are. -/
theorem proper_laws (ha : a.Proper) (hb : b.Proper) (hc : c.Proper) : Laws a b c where
  refused e := by rw [checkedAdd_eq_error_iff, add?_eq_none_iff, and_comm]
  summed s := by rw [checkedAdd_eq_ok_iff, ha.add?_eq_some_iff hb, funext_iff]; rfl
  neutral := checkedAdd_eq_ok_iff.2 ha.add?_zero
  comm := by rw [toOption_checkedAdd, toOption_checkedAdd, ha.add?_comm hb]
  assoc := by
    simp only [toOption_checkedAdd]
    exact ha.add?_assoc hb hc
  cancel s hac hbc :=
    ha.add?_right_cancel hb hc (checkedAdd_eq_ok_iff.1 hac) (checkedAdd_eq_ok_iff.1 hbc)
  difference s := by rw [ha.sub?_eq_some_iff_add? hb, checkedAdd_eq_ok_iff]
  missing := sub?_eq_none_iff
  single := .ofCoin
  quotient := a.proper_quo
  extensional := ⟨fun h _ => h ▸ rfl, ha.ext hb⟩

/-- Of the greatest amount, one unit of dust and one unit more, the first two fit together
and the last two do, but not all three, whichever way they are grouped. -/
theorem proper_laws_at_limit :
    let most := ofCoin ⟨"ugd", 18446744073709551615⟩
    let dust := ofCoin ⟨"dust", 1⟩
    let more := ofCoin ⟨"ugd", 1⟩
    (most.Proper ∧ dust.Proper ∧ more.Proper) ∧ Laws most dust more ∧
      ((dust.checkedAdd more).toOption.bind fun t => (most.checkedAdd t).toOption) = none := by
  intro most dust more
  have hlaws := proper_laws (a := most) (b := dust) (c := more) (.ofCoin _) (.ofCoin _) (.ofCoin _)
  refine ⟨⟨.ofCoin _, .ofCoin _, .ofCoin _⟩, hlaws, ?_⟩
  rw [← hlaws.assoc]
  decide +kernel

end Mintage.Coins
