import Mathlib.Data.List.Basic
import Mathlib.Data.Set.List
import Mintage.Proofs.Block.Conservation

/-!
The records of the scheduled mints as an index by height.

* `Ledger.Filed`: every record stands under the height that it is about. Every operation and
  every block keeps a ledger so (`reached_filed`).
* `Ledger.WellFormed.recordEntries`: the entries that begin like records are those of a list
  of records, each under its own height.
* `Ledger.mintRecords_indexed`: the list of all records is in ascending order of the heights,
  and holds just what looking each height up gives.
-/

namespace Mintage.Ledger

open Packed StoreM

variable {L M : Ledger}

/-! ### Records under their heights -/

/-- Every record stands under the height that it is about. -/
def Filed (L : Ledger) : Prop :=
  ∀ height b, L.bytes? (.mintRecord height) = some b →
    ∃ r : MintRecord, r.blockHeight = height ∧ b = pack r

lemma empty_filed : empty.Filed := by
  intro height b hb
  simp [bytes?, empty] at hb

/-- If all records of the one ledger stand under their heights, so do those of the other. -/
def KeepsFiled (L M : Ledger) : Prop := L.Filed → M.Filed

instance : Chains KeepsFiled := ⟨fun _ => id, fun h h' hL => h' (h hL)⟩

lemma SameRecords.keepsFiled (h : L.SameRecords M) : L.KeepsFiled M :=
  fun hL height b hb => hL height b ((h.entry height).symm.trans hb)

/-- A record is stored under its own height. -/
lemma store_record_keepsFiled (L : Ledger) (r : MintRecord) :
    L.KeepsFiled (L.store (.put (.mintRecord r.blockHeight) r)) := by
  intro hL height b hb
  by_cases hheight : r.blockHeight = height
  · subst hheight
    have hself := bytes?_store_self L (.put (.mintRecord r.blockHeight) r)
    exact ⟨r, rfl, Option.some_inj.1 (hb.symm.trans hself)⟩
  · have hne := bytes?_store_ne L (w := .put (.mintRecord r.blockHeight) r)
      (k := .mintRecord height) fun hk => hheight (Key.mintRecord.inj hk)
    exact hL height b (hne.symm.trans hb)

/-- Writes of anything but records keep the records where they are. -/
lemma apply_keepsFiled (ws : List Write) (h : ∀ w ∈ ws, ∀ height, w.key ≠ .mintRecord height) :
    L.KeepsFiled (L.apply ws) :=
  (sameRecords_apply L h).keepsFiled

lemma commitWrites_keepsFiled {account : Account} {coins : Coins} {record : MintRecord}
    {ws : List Write} (h : L.commitWrites account coins record = .ok ws) :
    L.KeepsFiled (L.apply ws) := by
  obtain ⟨had, has, counted, counts, -, rfl⟩ := commitWrites_cases h
  -- the record comes last, after three entries that are none
  have hothers : L.KeepsFiled (L.apply [.put (.account account.address.encoded) account,
      .put (.balance account.address.encoded) has, .put .supply counts]) :=
    apply_keepsFiled _ (by simp [Write.put])
  exact Chains.trans hothers (store_record_keepsFiled _ record)

lemma keepsFiled_respected : StepRespects KeepsFiled where
  minter _ m := apply_keepsFiled [.put .minter m] (by simp [Write.put])
  mint h := (mintWrites_sameRecords h).keepsFiled
  transfer h := (moduleTransferWrites_sameRecords h).keepsFiled
  number L := (reserveNumber_quiet L).sameRecords.keepsFiled
  commit h := commitWrites_keepsFiled h
  params _ p := apply_keepsFiled [.put .params p] (by simp [Write.put])
  lastBlock _ b := apply_keepsFiled [.put .lastBlock b] (by simp [Write.put])
  account _ a :=
    apply_keepsFiled [.put (.account a.address.encoded) a] (by simp [Write.put])
  record := store_record_keepsFiled
  payment h := by
    rcases accountTransferWrites_cases h with rfl | ⟨_, left, _, holds, -, rfl⟩
    · exact Chains.refl _
    · exact apply_keepsFiled _ (by simp [Write.put])

/-- **Every reachable ledger** has its records under their heights. -/
theorem reached_filed (run : List (LedgerStep × Outages)) : (reached run).Filed :=
  run_invariant (I := Filed) (step_within keepsFiled_respected) empty_filed run

/-! ### The list of all records -/

/-- Where all records stand under their heights, the entries that begin like records are
those of a list of records. -/
theorem WellFormed.recordEntries (hL : L.WellFormed) (hfiled : L.Filed) :
    ∃ rs : List MintRecord, L.entriesUnder Key.recordStart
      = rs.map fun r => ((Key.mintRecord r.blockHeight).text, pack r) := by
  have hentry : ∀ e ∈ L.entriesUnder Key.recordStart,
      e ∈ Set.range fun r : MintRecord => ((Key.mintRecord r.blockHeight).text, pack r) := by
    intro e he
    obtain ⟨hmem, hstart⟩ := List.mem_filter.1 he
    obtain ⟨k, hk, -⟩ := hL.entry e hmem
    obtain ⟨height, rfl⟩ := Key.recordStart_prefix_iff.1 (hk ▸ of_decide_eq_true hstart)
    have hbytes : L.bytes? (.mintRecord height) = some e.2 := by
      rw [bytes?, ← hk]
      exact OrderedMap.mem_toList_iff.1 hmem
    obtain ⟨r, rfl, hpack⟩ := hfiled height e.2 hbytes
    exact ⟨r, (Prod.ext hk hpack).symm⟩
  obtain ⟨rs, hrs⟩ := (Set.range_list_map _).ge hentry
  exact ⟨rs, hrs.symm⟩

/-- Packed records read one by one. -/
lemma readRecords_map (key : MintRecord → String) (rs : List MintRecord) :
    readRecords (rs.map fun r => (key r, pack r)) = .ok rs := by
  induction rs with
  | nil => rfl
  | cons r rs ih =>
      rw [List.map_cons, readRecords, unpack?_pack, ih]
      rfl

/-- A record reads under a height where its packed form stands there. -/
lemma Filed.mintRecord?_eq_iff (hfiled : L.Filed) {height : UInt64} {r : MintRecord} :
    L.mintRecord? height = .ok (some r) ↔
      r.blockHeight = height ∧ L.bytes? (.mintRecord r.blockHeight) = some (pack r) := by
  constructor
  · intro hread
    cases hb : L.bytes? (.mintRecord height) with
    | none =>
        rw [mintRecord?, load?, hb] at hread
        cases hread
    | some b =>
        obtain ⟨s, rfl, rfl⟩ := hfiled height b hb
        cases (load?_of_bytes? hb).symm.trans hread
        exact ⟨rfl, hb⟩
  · rintro ⟨rfl, hb⟩
    exact load?_of_bytes? hb

/-- **The records are an index by height.** Whatever operations and blocks lead to a ledger,
and whichever of them failed, the list of its records reads, in strictly ascending order of
the heights; it holds a record for a height just where looking that height up gives the
record; and every height can be looked up. -/
theorem mintRecords_indexed (run : List (LedgerStep × Outages)) :
    ∃ rs, (reached run).mintRecords = .ok rs ∧
      rs.Pairwise (fun r s => r.blockHeight < s.blockHeight) ∧
      (∀ height r, r ∈ rs ∧ r.blockHeight = height ↔
        (reached run).mintRecord? height = .ok (some r)) ∧
      ∀ height, ∃ o, (reached run).mintRecord? height = .ok o := by
  have hformed := (reached_sound run).wellFormed
  have hfiled := reached_filed run
  obtain ⟨rs, hrs⟩ := hformed.recordEntries hfiled
  refine ⟨rs, ?_, ?_, fun height r => ?_, hformed.mintRecord?_ok⟩
  · show readRecords ((reached run).entriesUnder Key.recordStart) = .ok rs
    rw [hrs, readRecords_map]
  · have hsorted : ((reached run).entriesUnder Key.recordStart).Pairwise fun a b => a.1 < b.1 :=
      ((reached run).entries.filter _).sorted
    rw [hrs] at hsorted
    exact (List.pairwise_map.1 hsorted).imp Key.lt_of_recordText_lt
  · have hmem : r ∈ rs ↔
        (reached run).bytes? (.mintRecord r.blockHeight) = some (pack r) := by
      have hentry : r ∈ rs ↔ ((Key.mintRecord r.blockHeight).text, pack r)
          ∈ (reached run).entriesUnder Key.recordStart := by
        have hinj : Function.Injective fun s : MintRecord =>
            ((Key.mintRecord s.blockHeight).text, pack s) :=
          fun s t h => pack_injective (congrArg Prod.snd h)
        rw [hrs]
        exact (List.mem_map_of_injective hinj).symm
      rw [hentry, bytes?, ← OrderedMap.mem_toList_iff]
      exact List.mem_filter.trans
        (and_iff_left (decide_eq_true (Key.recordStart_prefix_iff.2 ⟨_, rfl⟩)))
    rw [hfiled.mintRecord?_eq_iff, hmem, and_comm]

end Mintage.Ledger
