import Mintage.Proofs.Block.Scheduled

/-!
A genesis that was cut short does no harm. The minter is written before the parameters, and
only stored parameters count as a genesis, so that wherever an attempt stops, the next one
finds out what is missing.

* `genesisWrites`: the writes of an attempt, in order. `ensureGenesis_leaves_iff`: calls that
  are out of order leave the ledger as it is after some of them, and after any number.
* `Ledger.Resumable`: stored parameters come with a stored minter. Every step of an attempt
  and every block keeps it so.
* `ensureGenesis_completes`: after any attempts and blocks, a complete attempt succeeds.
-/

namespace Mintage

open StoreM

/-! ### The writes of an attempt -/

/-- What an attempt at a genesis writes, one after the other: the minter and the parameters
of a new chain, or parameters that differ from the stored ones. -/
def genesisWrites (L : Ledger) (p : Params) : List Write :=
  match p.validate, L.params? with
  | .ok (), .ok none => [.put .minter Minter.initial, .put .params p]
  | .ok (), .ok (some stored) => if stored = p then [] else [.put .params p]
  | _, _ => []

section Writes

variable {L : Ledger} {p : Params}

lemma genesisWrites_of_fault {f : ParameterFault} (h : p.validate = .error f) (L : Ledger) :
    genesisWrites L p = [] := by
  rw [genesisWrites, h]

lemma genesisWrites_of_unread {e : StateError} (h : L.params? = .error e) (p : Params) :
    genesisWrites L p = [] := by
  rw [genesisWrites, h]
  cases p.validate <;> rfl

lemma genesisWrites_of_none (hp : p.validate = .ok ()) (h : L.params? = .ok none) :
    genesisWrites L p = [.put .minter Minter.initial, .put .params p] := by
  rw [genesisWrites, hp, h]

lemma genesisWrites_of_some {q : Params} (hp : p.validate = .ok ())
    (h : L.params? = .ok (some q)) :
    genesisWrites L p = if q = p then [] else [.put .params p] := by
  rw [genesisWrites, hp, h]

end Writes

/-- What a complete attempt reports, by the parameters that it finds. -/
def GenesisStatus.ofStored (p : Params) : Option Params → GenesisStatus
  | none => .initialized
  | some stored => if stored = p then .existing else .paramsUpdated

/-- **A complete attempt** makes all of its writes. -/
theorem runOn_ensureGenesis {p : Params} (hp : p.validate = .ok ()) {L : Ledger}
    {stored : Option Params} (hstored : L.params? = .ok stored) :
    (MintM.ensureGenesis p).runOn .none L
      = (.ok (.ofStored p stored), L.apply (genesisWrites L p)) := by
  rw [MintM.ensureGenesis, StoreM.getParams, 
    runOn_bind_of_ok _ (runOn_query_of_ok (fun _ => rfl) rfl hstored)]
  cases stored with
  | none =>
      have hgenesis := (Genesis.validate_initial p).trans hp
      rw [genesisWrites_of_none hp hstored]
      exact runOn_bind_of_ok _ (MintM.runOn_initGenesis hgenesis L)
  | some q =>
      rw [genesisWrites_of_some hp hstored, GenesisStatus.ofStored]
      dsimp only
      split
      · rfl
      · exact runOn_bind_of_ok _ (MintM.runOn_setParams hp L)

/-! ### Attempts that are cut short -/

/-- A finished or an unfinished genesis: some of its writes, from the first one on. -/
lemma initGenesis_leaves_iff {g : Genesis} (h : g.validate = .ok ()) (L M : Ledger) :
    (∃ o : Outages, o .getParams = none ∧ ((MintM.initGenesis g).runOn o L).2 = M) ↔
      ∃ n, M = L.apply ([.put .minter g.minter, .put .params g.params].take n) := by
  rw [MintM.initGenesis, MintM.check_bind_of_ok h]
  constructor
  · rintro ⟨o, -, rfl⟩
    rcases put_cases (·.setMinter g.minter) (fun _ => rfl) MintError.store o L with
      ⟨words, -, hrun⟩ | ⟨-, hrun⟩
    · exact ⟨0, by rw [StoreM.setMinter, runOn_bind, hrun]; rfl⟩
    rw [StoreM.setMinter, runOn_bind_of_ok _ hrun]
    rcases put_cases (·.setParams g.params) (fun _ => rfl) MintError.store o
      (L.store (.put .minter g.minter)) with ⟨words, -, hrun⟩ | ⟨-, hrun⟩
    · exact ⟨1, congrArg Prod.snd hrun⟩
    · exact ⟨2, congrArg Prod.snd hrun⟩
  · rintro ⟨_ | _ | n, rfl⟩
    · exact ⟨.only .setMinter, rfl, rfl⟩
    · exact ⟨.only .setParams, rfl, rfl⟩
    · exact ⟨.none, rfl, by rw [List.take_of_length_le (by simp)]; rfl⟩

lemma setParams_leaves_iff {p : Params} (h : p.validate = .ok ()) (L M : Ledger) :
    (∃ o : Outages, o .getParams = none ∧ ((MintM.setParams p).runOn o L).2 = M) ↔
      ∃ n, M = L.apply ([.put .params p].take n) := by
  rw [MintM.setParams, MintM.check_bind_of_ok h]
  constructor
  · rintro ⟨o, -, rfl⟩
    rcases put_cases (·.setParams p) (fun _ => rfl) MintError.store o L with
      ⟨words, -, hrun⟩ | ⟨-, hrun⟩
    · exact ⟨0, congrArg Prod.snd hrun⟩
    · exact ⟨1, congrArg Prod.snd hrun⟩
  · rintro ⟨_ | n, rfl⟩
    · exact ⟨.only .setParams, rfl, rfl⟩
    · exact ⟨.none, rfl, by rw [List.take_of_length_le (by simp)]; rfl⟩

/-- What follows a computation and writes nothing leaves the same ledger. -/
lemma runOn_bind_pure_snd {α β : Type} (m : MintM Ledger α) (b : β) (o : Outages) (L : Ledger) :
    ((m >>= fun _ => pure b).runOn o L).2 = (m.runOn o L).2 := by
  rcases runOn_bind_cases m (fun _ => pure b) o L with ⟨e, M, hrun, h⟩ | ⟨a, M, hrun, h⟩ <;>
    rw [h, hrun]
  rfl

/-- An attempt that reads the stored parameters writes a genesis, replaces the parameters, or
finds them in place. -/
lemma ensureGenesis_snd {o : Outages} (ho : o .getParams = none) {L : Ledger}
    {stored : Option Params} (hstored : L.params? = .ok stored) (p : Params) :
    ((MintM.ensureGenesis p).runOn o L).2 = match stored with
      | none => ((MintM.initGenesis ⟨Minter.initial, p⟩).runOn o L).2
      | some q => if q = p then L else ((MintM.setParams p).runOn o L).2 := by
  rw [MintM.ensureGenesis, StoreM.getParams, 
    runOn_bind_of_ok _ (runOn_query_of_ok (fun _ => rfl) ho hstored)]
  cases stored with
  | none => exact runOn_bind_pure_snd ..
  | some q =>
      dsimp only
      split
      · rfl
      · exact runOn_bind_pure_snd ..

/-- An attempt that does not read the stored parameters writes nothing. -/
lemma ensureGenesis_snd_of_unread {o : Outages} {L : Ledger}
    (h : o .getParams = none → ∃ e, L.params? = .error e) (p : Params) :
    ((MintM.ensureGenesis p).runOn o L).2 = L := by
  rw [MintM.ensureGenesis, StoreM.getParams]
  cases ho : o .getParams with
  | some words => rw [runOn_bind, runOn_call_of_outage (fun _ => rfl) ho]
  | none =>
      obtain ⟨e, he⟩ := h ho
      rcases query_cases (·.getParams) (fun _ => rfl) MintError.store o L with
        ⟨_, -, hrun⟩ | ⟨_, hread, -⟩
      · rw [runOn_bind, hrun]
      · cases he.symm.trans hread

/-- An attempt that reads the stored parameters makes some of its writes. -/
lemma ensureGenesis_leaves_iff_of_read {L : Ledger} {stored : Option Params}
    (hstored : L.params? = .ok stored) (p : Params) (M : Ledger) :
    (∃ o : Outages, o .getParams = none ∧ ((MintM.ensureGenesis p).runOn o L).2 = M) ↔
      ∃ n, M = L.apply ((genesisWrites L p).take n) := by
  have hsnd (o : Outages) (ho : o .getParams = none) := ensureGenesis_snd ho hstored p
  -- where there is nothing to write
  have hnothing (hwrites : genesisWrites L p = [])
      (h : ∀ o : Outages, o .getParams = none → ((MintM.ensureGenesis p).runOn o L).2 = L) :
      (∃ o : Outages, o .getParams = none ∧ ((MintM.ensureGenesis p).runOn o L).2 = M) ↔
        ∃ n, M = L.apply ((genesisWrites L p).take n) := by
    simp only [hwrites, List.take_nil, Ledger.apply_nil, exists_const]
    constructor
    · rintro ⟨o, ho, rfl⟩
      exact h o ho
    · rintro rfl
      exact ⟨.none, rfl, h .none rfl⟩
  cases hvalid : p.validate with
  | error f =>
      refine hnothing (genesisWrites_of_fault hvalid L) fun o ho => ?_
      have hgenesis := (Genesis.validate_initial p).trans hvalid
      rw [hsnd o ho, MintM.runOn_initGenesis_of_error hgenesis,
        MintM.runOn_setParams_of_error hvalid]
      cases stored with
      | none => rfl
      | some q => exact ite_self L
  | ok u =>
      cases stored with
      | none =>
          have hgenesis := (Genesis.validate_initial p).trans hvalid
          rw [genesisWrites_of_none hvalid hstored, ← initGenesis_leaves_iff hgenesis]
          exact exists_congr fun o => and_congr_right fun ho => by rw [hsnd o ho]
      | some q =>
          have hwrites := genesisWrites_of_some hvalid hstored
          by_cases hq : q = p
          · refine hnothing (hwrites.trans (if_pos hq)) fun o ho => ?_
            rw [hsnd o ho]
            exact if_pos hq
          · rw [hwrites.trans (if_neg hq), ← setParams_leaves_iff hvalid]
            refine exists_congr fun o => and_congr_right fun ho => ?_
            rw [hsnd o ho]
            simp only [if_neg hq]

/-- **An attempt at a genesis**, whichever calls are out of order, makes some of its writes,
from the first one on; and it can stop after any number of them. -/
theorem ensureGenesis_leaves_iff (p : Params) (L M : Ledger) :
    (∃ o : Outages, ((MintM.ensureGenesis p).runOn o L).2 = M) ↔
      ∃ n, M = L.apply ((genesisWrites L p).take n) := by
  cases hstored : L.params? with
  | error e =>
      have hwrites := genesisWrites_of_unread hstored p
      have hleaves (o : Outages) := ensureGenesis_snd_of_unread (o := o) (fun _ => ⟨e, hstored⟩) p
      simp only [hleaves, hwrites, List.take_nil, Ledger.apply_nil, exists_const]
      exact eq_comm
  | ok stored =>
      rw [← ensureGenesis_leaves_iff_of_read hstored]
      constructor
      · rintro ⟨o, rfl⟩
        cases ho : o .getParams with
        | none => exact ⟨o, ho, rfl⟩
        | some words =>
            have hunread : o .getParams = none → ∃ e, L.params? = .error e := by
              rw [ho]
              nofun
            refine (ensureGenesis_leaves_iff_of_read hstored p _).2 ⟨0, ?_⟩
            exact ensureGenesis_snd_of_unread hunread p
      · rintro ⟨o, -, h⟩
        exact ⟨o, h⟩

/-! ### Runs -/

/-- The parameters and the minter read, and parameters are stored only where a minter is. -/
def Ledger.Resumable (L : Ledger) : Prop :=
  ∃ stored minter, L.params? = .ok stored ∧ L.minter? = .ok minter ∧ (minter = none → stored = none)

namespace Ledger

variable {L : Ledger}

lemma resumable_empty : empty.Resumable := ⟨none, none, rfl, rfl, fun _ => rfl⟩

/-- Storing a minter does no harm. -/
lemma Resumable.store_minter (hL : L.Resumable) (m : Minter) :
    (L.store (.put .minter m)).Resumable := by
  obtain ⟨stored, _, hstored, -, -⟩ := hL
  have hread := L.load?_store_ne (α := Params) (w := .put .minter m) (k := .params) nofun
  exact ⟨stored, some m, hread.trans hstored, load?_store_self L .minter m, nofun⟩

/-- Parameters may be stored where a minter is. -/
lemma resumable_store_params {m : Minter} (hminter : L.minter? = .ok (some m)) (p : Params) :
    (L.store (.put .params p)).Resumable := by
  have hread := L.load?_store_ne (α := Minter) (w := .put .params p) (k := .minter) nofun
  exact ⟨some p, some m, load?_store_self L .params p, hread.trans hminter, nofun⟩

/-- A block keeps a minter and the parameters, or replaces the minter. -/
lemma resumable_respects : BlockRespects fun L M => L.Resumable → M.Resumable := by
  refine .of_sameEntries (fun L m hL => hL.store_minter m) fun h hL => ?_
  obtain ⟨stored, minter, hstored, hminter, himp⟩ := hL
  exact ⟨stored, minter, (load?_of_sameEntry (h .params trivial)).trans hstored,
    (load?_of_sameEntry (h .minter trivial)).trans hminter, himp⟩

/-- **Wherever an attempt stops**, stored parameters come with a stored minter. -/
theorem Resumable.stopped (hL : L.Resumable) (p : Params) (n : ℕ) :
    (L.apply ((genesisWrites L p).take n)).Resumable := by
  have ⟨stored, minter, hstored, hminter, himp⟩ := hL
  cases hvalid : p.validate with
  | error f =>
      rw [genesisWrites_of_fault hvalid, List.take_nil]
      exact hL
  | ok u =>
      cases stored with
      | none =>
          rw [genesisWrites_of_none hvalid hstored]
          have hfirst := hL.store_minter Minter.initial
          rcases n with _ | _ | n
          · exact hL
          · exact hfirst
          · rw [List.take_of_length_le (by simp)]
            exact resumable_store_params (load?_store_self L .minter Minter.initial) p
      | some q =>
          rw [genesisWrites_of_some hvalid hstored]
          obtain ⟨m, rfl⟩ := Option.ne_none_iff_exists'.1 fun h => nomatch himp h
          rcases n with _ | n
          · exact hL
          · split
            · exact hL
            · rw [List.take_of_length_le (by simp)]
              exact resumable_store_params hminter p

/-- **Once all is written**, the parameters are stored, and a minter: that of a new chain, or
the one that was there with other parameters. -/
theorem Resumable.completed (hL : L.Resumable) {p : Params} (hp : p.validate = .ok ())
    {stored : Option Params} (hstored : L.params? = .ok stored) :
    ∃ minter, (L.apply (genesisWrites L p)).params? = .ok (some p) ∧
      (L.apply (genesisWrites L p)).minter? = .ok (some minter) ∧
      if stored = none then minter = Minter.initial else L.minter? = .ok (some minter) := by
  obtain ⟨_, minter, hstored', hminter, himp⟩ := hL
  cases hstored'.symm.trans hstored
  have hkeeps (M : Ledger) : (M.store (.put .params p)).minter? = M.minter? :=
    M.load?_store_ne (w := .put .params p) nofun
  cases stored with
  | none =>
      rw [genesisWrites_of_none hp hstored]
      refine ⟨Minter.initial, load?_store_self _ .params p, (hkeeps _).trans ?_, rfl⟩
      exact load?_store_self L .minter Minter.initial
  | some q =>
      obtain ⟨m, rfl⟩ := Option.ne_none_iff_exists'.1 fun h => nomatch himp h
      rw [genesisWrites_of_some hp hstored]
      refine ⟨m, ?_, ?_, hminter⟩ <;> split
      · next hq => exact hq ▸ hstored
      · exact load?_store_self L .params p
      · exact hminter
      · exact (hkeeps L).trans hminter

end Ledger

/-- What can happen to a chain while its genesis is attempted, with any parameters: an
attempt, complete or with calls that are out of order; an attempt that is stopped after some
of its writes; a block, with any cache. -/
inductive GenesisStep where
  | ensure (p : Params) (o : Outages)
  | stopped (p : Params) (writes : ℕ)
  | beginBlock (s : Settings) (ctx : BlockContext) (cache : MintCache) (o : Outages)

namespace GenesisStep

/-- The ledger after a step. -/
def step (L : Ledger) : GenesisStep → Ledger
  | ensure p o => ((MintM.ensureGenesis p).runOn o L).2
  | stopped p writes => L.apply ((genesisWrites L p).take writes)
  | beginBlock s ctx cache o => (Chain.beginBlock ⟨L, cache, .zero⟩ s o ctx).2.ledger

/-- The ledger that a run leads to from the empty one. -/
def reached (run : List GenesisStep) : Ledger := runAll step .empty run

/-- Every step leaves a ledger whose genesis can be completed. -/
lemma step_resumable (L : Ledger) (e : GenesisStep) (hL : L.Resumable) : (step L e).Resumable := by
  cases e with
  | ensure p o =>
      obtain ⟨n, hn⟩ := (ensureGenesis_leaves_iff p L _).1 ⟨o, rfl⟩
      rw [step, hn]
      exact hL.stopped p n
  | stopped p writes => exact hL.stopped p writes
  | beginBlock s ctx cache o =>
      exact Chain.beginBlock_within Ledger.resumable_respects ⟨L, cache, .zero⟩ s o ctx hL

lemma reached_resumable (run : List GenesisStep) : (reached run).Resumable :=
  run_invariant (I := Ledger.Resumable) step_resumable Ledger.resumable_empty run

end GenesisStep

/-- **A genesis survives being cut short.** Whatever attempts and blocks there were, and
wherever they stopped, a complete attempt with usable parameters succeeds: these parameters
and a minter are stored then. Without stored parameters to begin with it is the minter of a
new chain, and otherwise the one that was there. Another attempt with the same parameters
finds them in place and changes nothing. -/
theorem ensureGenesis_completes (run : List GenesisStep) {p : Params} (hp : p.validate = .ok ()) :
    ∃ stored M minter, (GenesisStep.reached run).params? = .ok stored ∧
      (MintM.ensureGenesis p).runOn .none (GenesisStep.reached run)
        = (.ok (.ofStored p stored), M) ∧
      M.params? = .ok (some p) ∧ M.minter? = .ok (some minter) ∧
      (if stored = none then minter = Minter.initial
        else (GenesisStep.reached run).minter? = .ok (some minter)) ∧
      (MintM.ensureGenesis p).runOn .none M = (.ok .existing, M) := by
  obtain ⟨stored, _, hstored, -, -⟩ := GenesisStep.reached_resumable run
  obtain ⟨minter, hparams, hminter, hkept⟩ :=
    (GenesisStep.reached_resumable run).completed hp hstored
  have hagain := runOn_ensureGenesis hp hparams
  rw [genesisWrites_of_some hp hparams, GenesisStatus.ofStored, if_pos rfl] at hagain
  exact ⟨stored, _, minter, hstored, runOn_ensureGenesis hp hstored, hparams, hminter, hkept,
    by simpa using hagain⟩

/-- Parameters that differ from the default ones. -/
def yearlyParams : Params := { Params.default with blocksPerYear := 1 }

/-- A first attempt is stopped between its writes, a second one completes the genesis with
other parameters, a block begins, and a third attempt has unusable parameters. -/
def interruptedRun : List GenesisStep :=
  [.stopped .default 1, .ensure yearlyParams .none,
    .beginBlock Chain.sampleSettings Chain.firstBlock (.new "unigrid") .none,
    .ensure { Params.default with blocksPerYear := 0 } .none, .stopped .default 0]

/-- After such a run the default parameters replace the others, and the minter that the block
has brought in line stays. -/
theorem ensureGenesis_completes_interrupted :
    Params.default.validate = .ok () ∧
    ∃ M, (MintM.ensureGenesis .default).runOn .none (GenesisStep.reached interruptedRun)
        = (.ok .paramsUpdated, M) ∧
      M.params? = .ok (some .default) ∧
      M.minter? = .ok (some (Minter.initial.syncWith yearlyParams)) ∧
      (MintM.ensureGenesis .default).runOn .none M = (.ok .existing, M) := by
  have hp : Params.default.validate = .ok () := rfl
  obtain ⟨stored, M, minter, hstored, hrun, hparams, hminter, hkept, hagain⟩ :=
    ensureGenesis_completes interruptedRun hp
  have ⟨hfound, hsynced⟩ : (GenesisStep.reached interruptedRun).params? = .ok (some yearlyParams) ∧
      (GenesisStep.reached interruptedRun).minter?
        = .ok (some (Minter.initial.syncWith yearlyParams)) := by
    decide +kernel
  cases hstored.symm.trans hfound
  cases hkept.symm.trans hsynced
  exact ⟨hp, M, hrun, hparams, hminter, hagain⟩

end Mintage
