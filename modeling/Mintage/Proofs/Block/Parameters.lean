import Mintage.Proofs.Block.Begin
import Mintage.Proofs.Block.Genesis
import Mintage.Proofs.Data.History
import Mintage.Proofs.Emission.Params

/-!
The parameters that are stored are usable. Whoever writes them checks them first, and a
block, which works with them, does not write them.

* `issueSubsidy_upholds`, `Chain.beginBlock_upholds`: a block that finds usable parameters
  leaves them as they are, and does not blame them.
* `ParameterCall`: the calls that write parameters or work with them.
  `ParameterCall.runOn_of_ok`, `ParameterCall.runOn_of_fault`: what a call does, by the check
  of what it is given.
* `ParameterCall.stored_usable`: over every run of such calls the stored parameters are
  usable, and nothing but a fault in what a call is given is ever reported as one.
-/

namespace Mintage

open StoreM

/-- The parameters read, and where some are stored they are usable. -/
def Ledger.ParamsUsable (L : Ledger) : Prop :=
  ∃ stored, L.params? = .ok stored ∧ ∀ p ∈ stored, p.Usable

/-- An error is not about the parameters, nor about a minter that is given with them. -/
def MintError.Blameless : MintError → Prop
  | invalidParameter _ => False
  | _ => True

namespace Ledger

lemma paramsUsable_empty : empty.ParamsUsable := ⟨none, rfl, by simp⟩

lemma paramsUsable_store (L : Ledger) {p : Params} (hp : p.Usable) :
    (L.store (.put .params p)).ParamsUsable :=
  ⟨some p, load?_store_self L .params p, fun _ h => by cases h; exact hp⟩

/-- Whether the parameters are usable depends on their own entry alone. -/
lemma ParamsUsable.of_sameEntry {L M : Ledger} (hL : L.ParamsUsable) (h : SameEntry .params L M) :
    M.ParamsUsable := by
  obtain ⟨stored, hread, husable⟩ := hL
  exact ⟨stored, (load?_of_sameEntry h).trans hread, husable⟩

end Ledger

/-! ### Blocks -/

/-- Usable parameters stay so, whatever a block writes. -/
lemma paramsUsable_respects : BlockRespects fun L M => L.ParamsUsable → M.ParamsUsable :=
  .of_sameEntries (fun L m hL => hL.of_sameEntry (L.bytes?_store_ne (w := .put .minter m) nofun))
    fun h hL => hL.of_sameEntry (h .params trivial)

lemma store_blameless (e : StateError) : (MintError.store e).Blameless := trivial

lemma bank_blameless (e : StateError) : (MintError.bank e).Blameless := trivial

/-- Reading an entry that must be there does not blame the parameters. -/
lemma existing_upholds {α : Type} {I : Ledger → Prop} {c : StoreCall}
    {op : Ledger → Except StateError (Option α)} (kind : EntryKind)
    (call : BlockStore Ledger → Call Ledger (Option α))
    (hcall : ∀ o : Outages, call o.store = o.reads c op) :
    Upholds I MintError.Blameless (MintM.existing kind (ask .store call)) := by
  refine .bind (.query store_blameless hcall) fun a => ?_
  cases a with
  | none => exact fun o L hL => ⟨hL, fun e h => by cases h; trivial⟩
  | some a => exact .pure a

/-- Usable parameters pass the check that is made when they are read. -/
lemma params_upholds : Upholds Ledger.ParamsUsable MintError.Blameless MintM.params :=
    fun o L hL => by
  have hstored := existing_upholds .params (·.getParams) (fun _ => rfl) o L hL
  rw [MintM.params, MintM.storedParams, StoreM.getParams]
  rcases existing_cases .params (·.getParams) (fun _ => rfl) o L with ⟨e, h⟩ | ⟨p, hp, h⟩
  · rw [h] at hstored
    rw [runOn_bind, h]
    exact ⟨hL, fun e' he' => hstored.2 e' (by cases he'; rfl)⟩
  · obtain ⟨stored, hread, husable⟩ := hL
    cases hread.symm.trans hp
    have hcheck := (Params.validate_eq_ok_iff p).2 (husable p rfl)
    rw [runOn_bind_of_ok _ h, MintM.check_bind_of_ok hcheck]
    exact Upholds.pure p o L ⟨_, hp, husable⟩

lemma mintSubsidy_upholds (s : Settings) (ctx : BlockContext) :
    Upholds Ledger.ParamsUsable MintError.Blameless (mintSubsidy s ctx) := by
  refine .bind params_upholds fun p => .bind (existing_upholds _ _ fun _ => rfl) fun m => ?_
  refine .bind (.put store_blameless (fun _ => rfl) (paramsUsable_respects.minter _ _)) fun _ => ?_
  exact .bind (.update bank_blameless (fun _ => rfl) paramsUsable_respects.mint) fun _ => .pure _

/-- **Issuing a subsidy** from usable parameters leaves them usable and does not blame them. -/
theorem issueSubsidy_upholds (s : Settings) (ctx : BlockContext) :
    Upholds Ledger.ParamsUsable MintError.Blameless (issueSubsidy s ctx) :=
  .bind (mintSubsidy_upholds s ctx) fun i =>
    .bind (.update bank_blameless (fun _ => rfl) paramsUsable_respects.transfer) fun _ => .pure i

/-- A scheduled mint never blames the parameters. -/
lemma ScheduledEnds.blameless {ctx : BlockContext} {params : Params} {minted : Coins}
    {addressPrefix : String} {m : Mint} {o : Outages} {L M : Ledger} {e : MintError}
    (h : ScheduledEnds ctx params minted addressPrefix m o L (.error (.failed e)) M) :
    e.Blameless := by
  cases h with
  | unplanned h => cases h <;> trivial
  | unnumbered => trivial
  | uncommitted => trivial

/-- **A block** that finds usable parameters leaves them usable, and does not blame them. -/
theorem Chain.beginBlock_upholds (c : Chain) (s : Settings) (o : Outages) (ctx : BlockContext)
    (hc : c.ledger.ParamsUsable) :
    (c.beginBlock s o ctx).2.ledger.ParamsUsable ∧
      ∀ e, (c.beginBlock s o ctx).1 = .error (.failed e) → e.Blameless := by
  refine ⟨c.beginBlock_within paramsUsable_respects s o ctx hc, fun e he => ?_⟩
  rcases c.beginBlock_cases s o ctx with ⟨e', L, hissue, hends⟩ | ⟨i, L, -, hrest⟩
  · have hsubsidy := (issueSubsidy_upholds s ctx o c.ledger hc).2 e
    rw [hissue] at hsubsidy
    cases hends.result.symm.trans he
    exact hsubsidy rfl
  rcases hrest with ⟨-, hends⟩ | ⟨m, r, M, -, happly, hends⟩
  · cases hends.result.symm.trans he
  obtain ⟨r', M', happly', hscheduled⟩ :=
    applyScheduled_ends ctx i.params i.minted c.cache.addressPrefix m o L
  cases happly'.symm.trans happly
  rcases hends with ⟨_, _, -, hends⟩ | ⟨_, -, -, hends⟩ | ⟨e', rfl, -, hends⟩ | ⟨-, hends⟩ <;>
    cases hends.result.symm.trans he
  exact hscheduled.blameless

/-! ### Writing parameters -/

namespace MintM

/-- A genesis that passes its check has usable parameters. -/
lemma usable_of_genesis {g : Genesis} (h : g.validate = .ok ()) : g.params.Usable :=
  (Params.validate_eq_ok_iff g.params).1 (Params.check_bind_eq_ok_iff.1 h).1

lemma setParams_upholds {p : Params} (h : p.validate = .ok ()) :
    Upholds Ledger.ParamsUsable MintError.Blameless (setParams p) := by
  rw [setParams, check_bind_of_ok h]
  exact .put store_blameless (fun _ => rfl) fun _ =>
    Ledger.paramsUsable_store _ ((Params.validate_eq_ok_iff p).1 h)

lemma initGenesis_upholds {g : Genesis} (h : g.validate = .ok ()) :
    Upholds Ledger.ParamsUsable MintError.Blameless (initGenesis g) := by
  rw [initGenesis, check_bind_of_ok h]
  exact .bind (.put store_blameless (fun _ => rfl) (paramsUsable_respects.minter _ _)) fun _ =>
    .put store_blameless (fun _ => rfl) fun _ =>
      Ledger.paramsUsable_store _ (usable_of_genesis h)

lemma ensureGenesis_upholds {p : Params} (h : p.validate = .ok ()) :
    Upholds Ledger.ParamsUsable MintError.Blameless (ensureGenesis p) := by
  refine .bind (.query store_blameless fun _ => rfl) fun stored => ?_
  cases stored with
  | none =>
      have hgenesis := (Genesis.validate_initial p).trans h
      exact .bind (initGenesis_upholds hgenesis) fun _ => .pure _
  | some q =>
      show Upholds _ _ (if q = p then _ else _)
      split
      · exact .pure _
      · exact .bind (setParams_upholds h) fun _ => .pure _

end MintM

/-! ### Calls -/

/-- The calls that write parameters or work with them, with all that they are given. A block
comes with any cache. -/
inductive ParameterCall where
  | initGenesis (g : Genesis)
  | ensureGenesis (p : Params)
  | setParams (p : Params)
  | beginBlock (s : Settings) (ctx : BlockContext) (cache : MintCache)

namespace ParameterCall

/-- What is wrong with the parameters and with the minter that a call is given. -/
def check : ParameterCall → Except ParameterFault Unit
  | initGenesis g => g.validate
  | ensureGenesis p => p.validate
  | setParams p => p.validate
  | beginBlock _ _ _ => .ok ()

/-- Whether a call succeeds or how it fails, and the ledger that it leaves. -/
def runOn (o : Outages) (L : Ledger) : ParameterCall → Except (Stop MintError) Unit × Ledger
  | initGenesis g => (MintM.initGenesis g).runOn o L
  | ensureGenesis p => ((MintM.ensureGenesis p).runOn o L).map (.map fun _ => ()) id
  | setParams p => (MintM.setParams p).runOn o L
  | beginBlock s ctx cache =>
      (Chain.beginBlock ⟨L, cache, .zero⟩ s o ctx).map (.map fun _ => ()) Chain.ledger

/-- The ledger that calls lead to from the empty one. -/
def reached (run : List (ParameterCall × Outages)) : Ledger :=
  runAll (fun L call => (call.1.runOn call.2 L).2) .empty run

/-- **A call without a fault** in what it is given leaves stored parameters usable, and does
not fail because of them. -/
theorem runOn_of_ok {call : ParameterCall} (h : call.check = .ok ()) (o : Outages) {L : Ledger}
    (hL : L.ParamsUsable) :
    (call.runOn o L).2.ParamsUsable ∧
      ∀ e, (call.runOn o L).1 = .error (.failed e) → e.Blameless := by
  cases call with
  | initGenesis g => exact MintM.initGenesis_upholds h o L hL
  | ensureGenesis p =>
      have hrun := MintM.ensureGenesis_upholds h o L hL
      exact ⟨hrun.1, fun e he => hrun.2 e (Except.map_eq_error_iff.1 he)⟩
  | setParams p => exact MintM.setParams_upholds h o L hL
  | beginBlock s ctx cache =>
      have hrun := Chain.beginBlock_upholds ⟨L, cache, .zero⟩ s o ctx hL
      exact ⟨hrun.1, fun e he => hrun.2 e (Except.map_eq_error_iff.1 he)⟩

/-- A call fails and leaves the ledger alone; it names the fault, unless the stored parameters
cannot be read. -/
def Refuses (call : ParameterCall) (o : Outages) (L : Ledger) (fault : ParameterFault) : Prop :=
  (call.runOn o L).2 = L ∧ ∃ e, (call.runOn o L).1 = .error (.failed e) ∧
    (e = .invalidParameter (.cause fault) ∨ o .getParams ≠ none ∧ ∃ cause, e = .store cause)

/-- **A call with a fault** in what it is given is refused. -/
theorem runOn_of_fault {call : ParameterCall} {fault : ParameterFault}
    (h : call.check = .error fault) (o : Outages) {L : Ledger} (hL : L.ParamsUsable) :
    call.Refuses o L fault := by
  cases call with
  | initGenesis g =>
      rw [Refuses, runOn, MintM.runOn_initGenesis_of_error h]
      exact ⟨rfl, _, rfl, .inl rfl⟩
  | ensureGenesis p =>
      obtain ⟨stored, hread, husable⟩ := hL
      rw [Refuses, runOn, MintM.ensureGenesis, StoreM.getParams]
      rcases query_cases (·.getParams) (fun _ => rfl) MintError.store o L with
        ⟨e, he, hrun⟩ | ⟨stored', hread', hrun⟩
      · rw [runOn_bind, hrun]
        have hout : o .getParams ≠ none := fun ho => by cases hread.symm.trans (he ho)
        exact ⟨rfl, _, rfl, .inr ⟨hout, e, rfl⟩⟩
      rw [runOn_bind_of_ok _ hrun]
      cases hread.symm.trans hread'
      cases stored with
      | none =>
          have hgenesis := (Genesis.validate_initial p).trans h
          simp only [runOn_bind, MintM.runOn_initGenesis_of_error hgenesis]
          exact ⟨rfl, _, rfl, .inl rfl⟩
      | some q =>
          have hne : q ≠ p := by
            rintro rfl
            cases h.symm.trans ((Params.validate_eq_ok_iff q).2 (husable q rfl))
          simp only [if_neg hne, runOn_bind, MintM.runOn_setParams_of_error h]
          exact ⟨rfl, _, rfl, .inl rfl⟩
  | setParams p =>
      rw [Refuses, runOn, MintM.runOn_setParams_of_error h]
      exact ⟨rfl, _, rfl, .inl rfl⟩
  | beginBlock s ctx cache => cases h

/-- Every ledger that calls lead to has usable parameters, or none. -/
lemma reached_paramsUsable (run : List (ParameterCall × Outages)) :
    (reached run).ParamsUsable := by
  refine run_invariant (fun L call hL => ?_) Ledger.paramsUsable_empty run
  cases h : call.1.check with
  | ok u => exact (runOn_of_ok h call.2 hL).1
  | error fault =>
      rw [(runOn_of_fault h call.2 hL).1]
      exact hL

/-- **Stored parameters are usable.** The check of parameters accepts just the usable ones,
and whatever calls lead from the empty ledger to another one, and whichever of them failed,
the parameters stored there are usable or there are none. In such a ledger a call with a
fault in what it is given is refused and changes nothing; only such a call is told of a
fault; and no block ever is. -/
theorem stored_usable :
    (∀ p : Params, p.validate = .ok () ↔ p.Usable) ∧
    ∀ run : List (ParameterCall × Outages),
      (∃ stored, (reached run).params? = .ok stored ∧ ∀ p ∈ stored, p.Usable) ∧
      (∀ (call : ParameterCall) (o : Outages) (fault : ParameterFault),
        call.check = .error fault → call.Refuses o (reached run) fault) ∧
      (∀ (call : ParameterCall) (o : Outages) (d : Detail ParameterFault),
        (call.runOn o (reached run)).1 = .error (.failed (.invalidParameter d)) →
        ∃ fault, d = .cause fault ∧ call.check = .error fault) ∧
      ∀ (cache : MintCache) (metrics : Metrics) (s : Settings) (o : Outages) (ctx : BlockContext)
        (d : Detail ParameterFault),
        (Chain.beginBlock ⟨reached run, cache, metrics⟩ s o ctx).1
          ≠ .error (.failed (.invalidParameter d)) := by
  refine ⟨Params.validate_eq_ok_iff, fun run => ?_⟩
  have husable := reached_paramsUsable run
  refine ⟨husable, fun call o fault h => runOn_of_fault h o husable, fun call o d hd => ?_,
    fun cache metrics s o ctx d hd => ?_⟩
  · cases h : call.check with
    | ok u => exact ((runOn_of_ok h o husable).2 _ hd).elim
    | error fault =>
        obtain ⟨-, e, he, hwhy⟩ := runOn_of_fault h o husable
        cases hd.symm.trans he
        rcases hwhy with hwhy | ⟨-, _, hwhy⟩ <;> cases hwhy
        exact ⟨fault, rfl, rfl⟩
  · exact (Chain.beginBlock_upholds ⟨reached run, cache, metrics⟩ s o ctx husable).2 _ hd

/-- The default genesis stores usable parameters. Others that have no block in a year are refused
then, and say why. -/
theorem stored_usable_zeroBlocks :
    (reached [(.ensureGenesis .default, .none)]).params? = .ok (some .default) ∧
    Params.default.Usable ∧
    (setParams { Params.default with blocksPerYear := 0 }).Refuses .none
      (reached [(.ensureGenesis .default, .none)]) .zeroBlocksPerYear := by
  obtain ⟨⟨stored, hread, husable⟩, hrefuses, -⟩ :=
    stored_usable.2 [(.ensureGenesis .default, .none)]
  have hstored : (reached [(.ensureGenesis .default, .none)]).params?
      = .ok (some .default) := by
    decide +kernel
  cases hread.symm.trans hstored
  exact ⟨hstored, husable _ rfl, hrefuses _ .none _ rfl⟩

end ParameterCall

end Mintage
