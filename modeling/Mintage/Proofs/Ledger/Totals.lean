import Mathlib.Data.Set.List
import Mintage.Proofs.Ledger.Entries

/-!
Sums over a whole ledger: the coins in the balances of all modules, in those of all
accounts, and in the records of all scheduled mints.

* `sumUnder_store`: storing an entry changes the sum of its kind by the difference to what
  was there; `sumUnder_store_of_not`: storing anything else does not.
* `WellFormed.moduleBalances`, `WellFormed.accountBalances`: the total of a kind of balance
  is what its holders have, each of them read once.
* `supplyTotal_of_supply`: the supply counts what it reads as.
* `WellFormed.mintRecords_ok`: the records of a well-formed ledger read, and their
  amounts add up to `recordTotal`.
-/

namespace Mintage

open Packed

/-- The coins that bytes stand for; bytes that do not read stand for none. -/
def coinsOf (b : Bytes) : Coins :=
  match (unpack? b : Option (Coins × Bytes)) with
  | some (c, _) => c
  | none => .zero

/-- What the record that bytes stand for gave its recipient; bytes that do not read give
nothing. -/
def amountOfRecord (b : Bytes) : Coins :=
  match (unpack? b : Option (MintRecord × Bytes)) with
  | some (r, _) => r.amount
  | none => .zero

@[simp] lemma coinsOf_pack (c : Coins) : coinsOf (pack c) = c := by
  rw [coinsOf, unpack?_pack]

@[simp] lemma amountOfRecord_pack (r : MintRecord) : amountOfRecord (pack r) = r.amount := by
  rw [amountOfRecord, unpack?_pack]

namespace Ledger

/-- How much of a denomination all entries stand for whose keys begin in a given way. -/
def sumUnder (L : Ledger) (start : String) (coins : Bytes → Coins) (denom : String) : Nat :=
  L.entries.sumBy fun text b =>
    if start.toList <+: text.toList then ((coins b).amountOf denom).toNat else 0

/-- How much of a denomination all modules hold together. -/
def moduleTotal (L : Ledger) (denom : String) : Nat := L.sumUnder Key.moduleStart coinsOf denom

/-- How much of a denomination all accounts hold together. -/
def accountTotal (L : Ledger) (denom : String) : Nat := L.sumUnder Key.balanceStart coinsOf denom

/-- How much of a denomination all balances hold together. -/
def holdings (L : Ledger) (denom : String) : Nat := L.moduleTotal denom + L.accountTotal denom

/-- How much of a denomination the supply counts; a supply that does not read counts
nothing. -/
def supplyTotal (L : Ledger) (denom : String) : Nat :=
  (L.bytes? .supply).elim 0 fun b => ((coinsOf b).amountOf denom).toNat

/-- How much of a denomination the recorded mints gave together. -/
def recordTotal (L : Ledger) (denom : String) : Nat :=
  L.sumUnder Key.recordStart amountOfRecord denom

/-! ### Sums over a kind of entry -/

/-- **Storing an entry** puts what it stands for into the sum of its kind, in place of what
was there. -/
theorem sumUnder_store (L : Ledger) {start : String} {w : Write}
    (hw : start.toList <+: w.key.text.toList) (coins : Bytes → Coins) (denom : String) :
    (L.store w).sumUnder start coins denom
        + (L.bytes? w.key).elim 0 (fun b => ((coins b).amountOf denom).toNat)
      = L.sumUnder start coins denom + ((coins w.value).amountOf denom).toNat := by
  have hinsert := OrderedMap.sumBy_insert
    (fun text b => if start.toList <+: text.toList then ((coins b).amountOf denom).toNat else 0)
    L.entries w.key.text w.value
  simp only [if_pos hw] at hinsert
  exact hinsert

/-- Storing any other entry leaves a sum as it is. -/
lemma sumUnder_store_of_not (L : Ledger) {start : String} {w : Write}
    (hw : ¬ start.toList <+: w.key.text.toList) (coins : Bytes → Coins) (denom : String) :
    (L.store w).sumUnder start coins denom = L.sumUnder start coins denom :=
  OrderedMap.sumBy_insert_of_zero _ _ fun _ => if_neg hw

/-- The entries whose keys begin in a given way. -/
def entriesUnder (L : Ledger) (start : String) : List (String × Bytes) :=
  (L.entries.filter fun text _ => decide (start.toList <+: text.toList)).toList

lemma sumUnder_eq (L : Ledger) (start : String) (coins : Bytes → Coins) (denom : String) :
    L.sumUnder start coins denom
      = ((L.entriesUnder start).map fun e => ((coins e.2).amountOf denom).toNat).sum := by
  have hfilter := OrderedMap.sumBy_filter (fun _ b => ((coins b).amountOf denom).toNat)
    (fun text _ => decide (start.toList <+: text.toList)) L.entries
  simp only [decide_eq_true_eq] at hfilter
  exact hfilter.symm

/-! ### Balances -/

/-- What a balance reads as is what its bytes count for in a sum. -/
lemma elim_coinsOf_of_loadCoins {L : Ledger} {k : Key} {held : Coins} (h : L.loadCoins k = .ok held)
    (denom : String) :
    (L.bytes? k).elim 0 (fun b => ((coinsOf b).amountOf denom).toNat)
      = (held.amountOf denom).toNat := by
  obtain ⟨o, ho, rfl⟩ := loadCoins_eq_ok_iff.1 h
  rw [load?] at ho
  cases hb : L.bytes? k with
  | none =>
      simp only [hb, Except.ok.injEq] at ho
      subst ho
      rfl
  | some b =>
      simp only [hb] at ho
      rw [Option.elim_some, coinsOf]
      split at ho
      · next c r hu =>
          obtain rfl := Except.ok.inj ho
          rw [hu]
          rfl
      · cases ho

lemma moduleTotal_store_of_not (L : Ledger) {w : Write} (hw : ∀ m, w.key ≠ .moduleBalance m)
    (denom : String) : (L.store w).moduleTotal denom = L.moduleTotal denom := by
  refine sumUnder_store_of_not L (fun h => ?_) coinsOf denom
  obtain ⟨m, hk⟩ := Key.moduleStart_prefix_iff.1 h
  exact hw m hk

lemma accountTotal_store_of_not (L : Ledger) {w : Write} (hw : ∀ a, w.key ≠ .balance a)
    (denom : String) : (L.store w).accountTotal denom = L.accountTotal denom := by
  refine sumUnder_store_of_not L (fun h => ?_) coinsOf denom
  obtain ⟨a, hk⟩ := Key.balanceStart_prefix_iff.1 h
  exact hw a hk

/-- A list of holders with what each of them has: nobody is listed twice, everybody listed
is read as listed, and nobody else has anything. -/
structure Balances (read : String → Except StateError Coins) (holders : List (String × Coins)) :
    Prop where
  nodup : (holders.map (·.1)).Nodup
  reads : ∀ h ∈ holders, read h.1 = .ok h.2
  rest : ∀ name, name ∉ holders.map (·.1) → read name = .ok .zero

/-- How much of a denomination the holders of a list have together. -/
def total (holders : List (String × Coins)) (denom : String) : Nat :=
  (holders.map fun h => (h.2.amountOf denom).toNat).sum

/-- **The balances of one kind** in a well-formed ledger, each of them once; they add up to
the sum over the entries. -/
theorem WellFormed.balances {L : Ledger} (hL : L.WellFormed) {start : String}
    {name : String → Key} (hname : Function.Injective name)
    (hstart : ∀ {k : Key}, start.toList <+: k.text.toList ↔ ∃ n, k = name n)
    (hholds : ∀ n b, (name n).Holds b → ∃ c : Coins, b = pack c) :
    ∃ holders, Balances (fun n => L.loadCoins (name n)) holders ∧
      ∀ denom, L.sumUnder start coinsOf denom = total holders denom := by
  obtain ⟨holders, hholders⟩ : ∃ holders : List (String × Coins),
      L.entriesUnder start = holders.map fun h => ((name h.1).text, pack h.2) := by
    have hentry : ∀ e ∈ L.entriesUnder start,
        e ∈ Set.range fun h : String × Coins => ((name h.1).text, pack h.2) := by
      intro e he
      obtain ⟨hmem, hunder⟩ := List.mem_filter.1 he
      obtain ⟨k, hk, hb⟩ := hL.entry e hmem
      obtain ⟨n, rfl⟩ := hstart.1 (hk ▸ of_decide_eq_true hunder)
      obtain ⟨c, hc⟩ := hholds n e.2 hb
      exact ⟨(n, c), (Prod.ext hk hc).symm⟩
    obtain ⟨holders, hholders⟩ := (Set.range_list_map _).ge hentry
    exact ⟨holders, hholders.symm⟩
  refine ⟨holders, ⟨?_, ?_, ?_⟩, ?_⟩
  · -- the keys of a map are all different, and so are the names that they are made of
    have hkeys : ((L.entriesUnder start).map (·.1)).Nodup :=
      List.pairwise_map.2 ((L.entries.filter _).sorted.imp fun hlt heq => by
        rw [heq] at hlt
        exact Std.lt_irrefl hlt)
    rw [hholders, List.map_map] at hkeys
    refine List.pairwise_map.2 ((List.pairwise_map.1 hkeys).imp fun hne heq => hne ?_)
    exact congrArg (fun n => (name n).text) heq
  · intro h hh
    have hmem : ((name h.1).text, pack h.2) ∈ L.entriesUnder start := by
      rw [hholders]
      exact List.mem_map_of_mem hh
    have hbytes : L.bytes? (name h.1) = some (pack h.2) :=
      OrderedMap.mem_toList_iff.1 (List.mem_filter.1 hmem).1
    exact loadCoins_eq_ok_iff.2 ⟨some h.2, load?_of_bytes? hbytes, rfl⟩
  · intro n hn
    have hnone : L.bytes? (name n) = none := by
      refine Option.eq_none_iff_forall_ne_some.2 fun b hb => hn ?_
      have hmem : ((name n).text, b) ∈ L.entriesUnder start :=
        List.mem_filter.2 ⟨OrderedMap.mem_toList_iff.2 hb, decide_eq_true (hstart.2 ⟨n, rfl⟩)⟩
      rw [hholders] at hmem
      obtain ⟨h, hh, heq⟩ := List.mem_map.1 hmem
      have hsame : h.1 = n := hname (Key.text_injective (congrArg Prod.fst heq))
      exact hsame ▸ List.mem_map_of_mem hh
    exact loadCoins_eq_ok_iff.2 ⟨none, by rw [load?, hnone], rfl⟩
  · intro denom
    rw [sumUnder_eq, hholders, List.map_map, total]
    exact congrArg _ (List.map_congr_left fun h _ => by simp)

/-- The balances of all modules. -/
lemma WellFormed.moduleBalances {L : Ledger} (hL : L.WellFormed) :
    ∃ modules, Balances L.moduleBalance modules ∧
      ∀ denom, L.moduleTotal denom = total modules denom :=
  hL.balances (fun _ _ => Key.moduleBalance.inj) Key.moduleStart_prefix_iff fun _ _ => id

/-- The balances of all accounts, under the texts of their addresses. -/
lemma WellFormed.accountBalances {L : Ledger} (hL : L.WellFormed) :
    ∃ accounts, Balances (fun text => L.loadCoins (.balance text)) accounts ∧
      ∀ denom, L.accountTotal denom = total accounts denom :=
  hL.balances (fun _ _ => Key.balance.inj) Key.balanceStart_prefix_iff fun _ _ => id

/-! ### The supply -/

/-- What the supply reads as is what it counts. -/
lemma supplyTotal_of_supply {L : Ledger} {c : Coins} (h : L.supply = .ok c) (denom : String) :
    L.supplyTotal denom = (c.amountOf denom).toNat :=
  elim_coinsOf_of_loadCoins h denom

/-- What the supply counts fits 64 bits. -/
lemma supplyTotal_lt (L : Ledger) (denom : String) : L.supplyTotal denom < UInt64.size := by
  rw [supplyTotal]
  cases L.bytes? .supply with
  | none => exact show 0 < UInt64.size by decide
  | some b => exact UInt64.toNat_lt_size _

lemma supplyTotal_store_self (L : Ledger) (c : Coins) (denom : String) :
    (L.store (.put .supply c)).supplyTotal denom = (c.amountOf denom).toNat :=
  supplyTotal_of_supply (loadCoins_store_self L .supply c) denom

lemma supplyTotal_store_ne (L : Ledger) {w : Write} (hw : w.key ≠ .supply) (denom : String) :
    (L.store w).supplyTotal denom = L.supplyTotal denom := by
  rw [supplyTotal, bytes?_store_ne L hw, supplyTotal]

/-! ### Records -/

lemma readRecords_ok {l : List (String × Bytes)} (h : ∀ e ∈ l, ∃ r : MintRecord, e.2 = pack r) :
    ∃ rs, readRecords l = .ok rs ∧ l.map (·.2) = rs.map pack := by
  induction l with
  | nil => exact ⟨[], rfl, rfl⟩
  | cons e l ih =>
      obtain ⟨r, hr⟩ := h e (List.mem_cons_self ..)
      obtain ⟨rs, hrs, hmap⟩ := ih fun d hd => h d (List.mem_cons_of_mem _ hd)
      refine ⟨r :: rs, ?_, by rw [List.map_cons, List.map_cons, hr, hmap]⟩
      obtain ⟨text, b⟩ := e
      obtain rfl : b = pack r := hr
      rw [readRecords, unpack?_pack, hrs]
      rfl

/-- The records of a well-formed ledger read, and their amounts add up to the total of
the records. -/
theorem WellFormed.mintRecords_ok {L : Ledger} (hL : L.WellFormed) :
    ∃ rs, L.mintRecords = .ok rs
      ∧ ∀ denom, (rs.map fun r => (r.amount.amountOf denom).toNat).sum = L.recordTotal denom := by
  obtain ⟨rs, hrs, hmap⟩ := readRecords_ok (l := L.entriesUnder Key.recordStart) fun e he => by
    obtain ⟨hmem, hstart⟩ := List.mem_filter.1 he
    obtain ⟨k, hk, hb⟩ := hL.entry e hmem
    obtain ⟨h, rfl⟩ := Key.recordStart_prefix_iff.1 (hk ▸ of_decide_eq_true hstart)
    exact hb
  refine ⟨rs, hrs, fun denom => ?_⟩
  rw [recordTotal, sumUnder_eq]
  calc (rs.map fun r => (r.amount.amountOf denom).toNat).sum
      = ((rs.map pack).map fun b => ((amountOfRecord b).amountOf denom).toNat).sum := by
        rw [List.map_map]
        exact congrArg _ (List.map_congr_left fun r _ => by simp)
    _ = _ := by rw [← hmap, List.map_map]; rfl

/-- **A record for a new height** adds its amount to the total of the records. -/
theorem recordTotal_store {L : Ledger} {r : MintRecord}
    (h : L.bytes? (.mintRecord r.blockHeight) = none) (denom : String) :
    (L.store (.put (.mintRecord r.blockHeight) r)).recordTotal denom
      = L.recordTotal denom + (r.amount.amountOf denom).toNat := by
  have hstored := sumUnder_store L (w := .put (.mintRecord r.blockHeight) r)
    (Key.recordStart_prefix_iff.2 ⟨_, rfl⟩) amountOfRecord denom
  simp only [Write.put, h, Option.elim_none, Nat.add_zero, amountOfRecord_pack] at hstored
  exact hstored

/-- Storing any entry but a record leaves the total of the records as it is. -/
lemma recordTotal_store_of_not (L : Ledger) {w : Write} (hw : ∀ h, w.key ≠ .mintRecord h)
    (denom : String) : (L.store w).recordTotal denom = L.recordTotal denom := by
  refine sumUnder_store_of_not L (fun h => ?_) amountOfRecord denom
  obtain ⟨height, hk⟩ := Key.recordStart_prefix_iff.1 h
  exact hw height hk

end Ledger

end Mintage
