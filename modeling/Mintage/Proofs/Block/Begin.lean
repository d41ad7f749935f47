import Mintage.Block.Begin
import Mintage.Proofs.Account.Vesting
import Mintage.Proofs.Block.Store
import Mintage.Proofs.Ledger.Bank

/-!
What beginning a block does, said once for every way it can end.

* `mintSubsidy_cases`, `planScheduled_cases`, `account_cases`, `applyScheduled_ends`:
  the ways the parts of a block can end, with what was read and what was written.
* `Chain.beginBlock_cases`: the six ways a block can end, with the ledger and the cache
  it leaves.
* `Chain.beginBlock_finish`: a block leaves the cache as it was, or finishes its height there.
* `BlockRespects.of_sameEntries`: of the mint module's own entries a block writes only the
  minter.
* `Chain.beginBlock_within`: a relation between ledgers that every write of a block
  respects holds across the block.
-/

namespace Mintage

open StoreM

/-! ### Reading and checking -/

lemma existing_cases {α : Type} {c : StoreCall} {op : Ledger → Except StateError (Option α)}
    (kind : EntryKind) (call : BlockStore Ledger → Call Ledger (Option α))
    (hcall : ∀ o : Outages, call o.store = o.reads c op) (o : Outages) (L : Ledger) :
    (∃ e, (MintM.existing kind (ask .store call)).runOn o L = (.error e, L)) ∨
    ∃ a, op L = .ok (some a) ∧ (MintM.existing kind (ask .store call)).runOn o L
      = (.ok a, L) := by
  rcases query_cases call hcall MintError.store o L with ⟨e, -, h⟩ | ⟨a, hop, h⟩
  · exact .inl ⟨_, by rw [MintM.existing, runOn_bind, h]⟩
  · rw [MintM.existing, runOn_bind_of_ok _ h]
    cases a with
    | none => exact .inl ⟨_, rfl⟩
    | some a => exact .inr ⟨a, hop, rfl⟩

/-- Reading the parameters changes nothing, and gives usable parameters that are stored. -/
lemma params_cases (o : Outages) (L : Ledger) :
    (∃ e, MintM.params.runOn o L = (.error e, L)) ∨
    ∃ p, L.params? = .ok (some p) ∧ p.validate = .ok () ∧ MintM.params.runOn o L = (.ok p, L) := by
  rcases existing_cases .params (·.getParams) (fun _ => rfl) o L with ⟨e, h⟩ | ⟨p, hp, h⟩
  · exact .inl ⟨e, by rw [MintM.params, MintM.storedParams, StoreM.getParams, runOn_bind, h]⟩
  · rw [MintM.params, MintM.storedParams, StoreM.getParams, runOn_bind_of_ok _ h]
    cases hv : p.validate with
    | error f => exact .inl ⟨_, rfl⟩
    | ok u => exact .inr ⟨p, hp, hv, rfl⟩

/-- Reading the minter changes nothing, and gives the minter that is stored. -/
lemma minter_cases (o : Outages) (L : Ledger) :
    (∃ e, MintM.minter.runOn o L = (.error e, L)) ∨
    ∃ m, L.minter? = .ok (some m) ∧ MintM.minter.runOn o L = (.ok m, L) :=
  existing_cases .minter (·.getMinter) (fun _ => rfl) o L

/-! ### The subsidy -/

/-- **Minting the subsidy** stops before anything is written, stops with the minter
written, or writes the minter and mints the subsidy computed from what is stored. -/
theorem mintSubsidy_cases (s : Settings) (ctx : BlockContext) (o : Outages) (L : Ledger) :
    (∃ e, (mintSubsidy s ctx).runOn o L = (.error e, L)) ∨
    (∃ e, ∃ minter : Minter,
      (mintSubsidy s ctx).runOn o L = (.error e, L.store (.put .minter minter))) ∨
    ∃ params minter i ws, L.params? = .ok (some params) ∧ params.validate = .ok () ∧
      L.minter? = .ok (some minter) ∧
      i = Issue.compute s ctx params (minter.syncWith params) ∧
      (L.store (.put .minter (minter.syncWith params))).mintWrites mintModule i.minted = .ok ws ∧
      (mintSubsidy s ctx).runOn o L
        = (.ok i, (L.store (.put .minter (minter.syncWith params))).apply ws) := by
  rw [mintSubsidy]
  rcases params_cases o L with ⟨e, h⟩ | ⟨params, hparams, hvalid, h⟩
  · exact .inl ⟨e, by rw [runOn_bind, h]⟩
  rw [runOn_bind_of_ok _ h]
  rcases minter_cases o L with ⟨e, h⟩ | ⟨minter, hminter, h⟩
  · exact .inl ⟨e, by rw [runOn_bind, h]⟩
  rw [runOn_bind_of_ok _ h]
  simp only [MintM.setMinter, StoreM.setMinter]
  rcases put_cases (·.setMinter (minter.syncWith params)) (fun _ => rfl) MintError.store o L
    with ⟨words, -, h⟩ | ⟨-, h⟩
  · exact .inl ⟨_, by rw [runOn_bind, h]⟩
  rw [runOn_bind_of_ok _ h]
  refine .inr ?_
  rcases update_cases
    (·.mintCoins mintModule (Issue.compute s ctx params (minter.syncWith params)).minted)
    (fun _ => rfl) MintError.bank o (L.store (.put .minter (minter.syncWith params))) with
      ⟨e, -, h⟩ | ⟨ws, hws, h⟩
  · exact .inl ⟨_, minter.syncWith params, by rw [StoreM.mintCoins, runOn_bind, h]⟩
  · exact .inr ⟨params, minter, _, ws, hparams, hvalid, hminter, rfl, hws, by
      rw [StoreM.mintCoins, runOn_bind_of_ok _ h]; rfl⟩

/-- **Issuing the subsidy** stops with the minting, or after it with the coins still in
the module, or moves them. -/
theorem issueSubsidy_cases (s : Settings) (ctx : BlockContext) (o : Outages) (L : Ledger) :
    (∃ e M, (mintSubsidy s ctx).runOn o L = (.error e, M) ∧
      (issueSubsidy s ctx).runOn o L = (.error e, M)) ∨
    ∃ i M, (mintSubsidy s ctx).runOn o L = (.ok i, M) ∧
      ((∃ e, (issueSubsidy s ctx).runOn o L = (.error e, M)) ∨
      ∃ ws, M.moduleTransferWrites mintModule s.feeCollector i.minted = .ok ws ∧
        (issueSubsidy s ctx).runOn o L = (.ok i, M.apply ws)) := by
  rw [issueSubsidy]
  rcases runOn_bind_cases (mintSubsidy s ctx) (fun i => do
      StoreM.sendToModule .bank mintModule s.feeCollector i.minted
      return i) o L with ⟨e, M, hmint, h⟩ | ⟨i, M, hmint, h⟩
  · exact .inl ⟨e, M, hmint, h⟩
  refine .inr ⟨i, M, hmint, ?_⟩
  rw [h, StoreM.sendToModule]
  rcases update_cases (·.sendToModule mintModule s.feeCollector i.minted) (fun _ => rfl)
    MintError.bank o M with ⟨e, -, h⟩ | ⟨ws, hws, h⟩
  · exact .inl ⟨_, by rw [runOn_bind, h]⟩
  · exact .inr ⟨ws, hws, by rw [runOn_bind_of_ok _ h]; rfl⟩

/-! ### The scheduled mint -/

/-- A scheduled mint passes the checks made before its recipient is looked at: its
height has no record, its address reads, and its amount fits in base units. -/
structure Screened (L : Ledger) (height : UInt64) (addressPrefix : String) (m : Mint)
    (address : Address) (amount : UInt64) : Prop where
  unrecorded : L.mintRecord? height = .ok none
  reads : Address.read m.address addressPrefix = .ok address
  fits : toBaseUnits? m.amount = some amount

/-- The ways in which checking a scheduled mint can end, with what each of them found. -/
inductive PlanEnds (ctx : BlockContext) (params : Params) (addressPrefix : String) (m : Mint)
    (o : Outages) (L : Ledger) : Except (Stop MintError) MintPlan → Prop where
  | recordUnread {e : StateError}
      (h : o .getMintRecord = none → L.mintRecord? ctx.height = .error e) :
      PlanEnds ctx params addressPrefix m o L (.error (.failed (.store e)))
  | recorded {r : MintRecord} (h : L.mintRecord? ctx.height = .ok (some r)) :
      PlanEnds ctx params addressPrefix m o L (.error (.failed (.alreadyMinted ctx.height)))
  | badAddress {e : StateError} (h : Address.read m.address addressPrefix = .error e) :
      PlanEnds ctx params addressPrefix m o L (.error (.failed (.invalidAddress (.cause e))))
  | badAmount (h : toBaseUnits? m.amount = none) :
      PlanEnds ctx params addressPrefix m o L (.error (.failed (.invalidAmount (.cause m.amount))))
  | accountUnread {address : Address} {amount : UInt64} {e : StateError}
      (screened : Screened L ctx.height addressPrefix m address amount)
      (h : o .getAccount = none → L.account? address = .error e) :
      PlanEnds ctx params addressPrefix m o L (.error (.failed (.state e)))
  | balanceUnread {address : Address} {amount : UInt64} {e : StateError}
      (screened : Screened L ctx.height addressPrefix m address amount)
      (h : o .getBalances = none → L.balance address = .error e) :
      PlanEnds ctx params addressPrefix m o L (.error (.failed (.state e)))
  | refused {address : Address} {amount : UInt64} {existing : Option Account} {balance : Coins}
      {e : StateError} (screened : Screened L ctx.height addressPrefix m address amount)
      (account : L.account? address = .ok existing)
      (h : vestingStep existing address balance ctx.time = .error (.failed e)) :
      PlanEnds ctx params addressPrefix m o L (.error (.failed (.state e)))
  | crashed {address : Address} {amount : UInt64} {existing : Option Account} {balance : Coins}
      (screened : Screened L ctx.height addressPrefix m address amount)
      (account : L.account? address = .ok existing)
      (h : vestingStep existing address balance ctx.time = .error .crashed) :
      PlanEnds ctx params addressPrefix m o L (.error .crashed)
  | planned {address : Address} {amount : UInt64} {existing : Option Account} {balance : Coins}
      {step : VestingStep} (screened : Screened L ctx.height addressPrefix m address amount)
      (account : L.account? address = .ok existing)
      (held : L.balance address = .ok balance)
      (h : vestingStep existing address balance ctx.time = .ok step) :
      PlanEnds ctx params addressPrefix m o L
        (.ok ⟨address, .ofCoin ⟨params.mintDenom, amount⟩, step⟩)

/-- Planning a mint that is screened writes nothing, and ends in one of five of the ways. -/
lemma planFor_cases {ctx : BlockContext} {L : Ledger} {addressPrefix : String} {m : Mint}
    {address : Address} {amount : UInt64}
    (screened : Screened L ctx.height addressPrefix m address amount) (params : Params)
    (o : Outages) :
    ∃ result, (planFor ctx.time address (.ofCoin ⟨params.mintDenom, amount⟩)).runOn o L
        = (result, L) ∧ PlanEnds ctx params addressPrefix m o L result := by
  rw [planFor, StoreM.getAccount]
  rcases query_cases (·.getAccount address) (fun _ => rfl) MintError.state o L with
    ⟨e, he, h⟩ | ⟨existing, hexisting, h⟩
  · exact ⟨_, by rw [runOn_bind, h], .accountUnread screened he⟩
  rw [runOn_bind_of_ok _ h, StoreM.getBalances]
  rcases query_cases (·.getBalances address) (fun _ => rfl) MintError.state o L with
    ⟨e, he, h⟩ | ⟨balance, hbalance, h⟩
  · exact ⟨_, by rw [runOn_bind, h], .balanceUnread screened he⟩
  rw [runOn_bind_of_ok _ h]
  rcases hstep : vestingStep existing address balance ctx.time with (e | _) | step
  · exact ⟨_, rfl, .refused screened hexisting hstep⟩
  · exact ⟨_, rfl, .crashed screened hexisting hstep⟩
  · exact ⟨_, rfl, .planned screened hexisting hbalance hstep⟩

/-- **Checking the scheduled mint** writes nothing, and ends in one of nine ways. -/
theorem planScheduled_cases (ctx : BlockContext) (params : Params) (addressPrefix : String)
    (m : Mint) (o : Outages) (L : Ledger) :
    ∃ result, (planScheduled ctx params addressPrefix m).runOn o L = (result, L) ∧
      PlanEnds ctx params addressPrefix m o L result := by
  rw [planScheduled, StoreM.getMintRecord]
  rcases query_cases (·.getMintRecord ctx.height) (fun _ => rfl) MintError.store o L with
    ⟨e, he, h⟩ | ⟨r, hr, h⟩
  · exact ⟨_, by rw [runOn_bind, h], .recordUnread he⟩
  rw [runOn_bind_of_ok _ h]
  cases r with
  | some r => exact ⟨_, rfl, .recorded hr⟩
  | none =>
      cases haddress : Address.read m.address addressPrefix with
      | error e => exact ⟨_, rfl, .badAddress haddress⟩
      | ok address =>
          cases hamount : toBaseUnits? m.amount with
          | none => exact ⟨_, rfl, .badAmount hamount⟩
          | some amount =>
              simp only [Option.isSome_none, Bool.false_eq_true, if_false, pure_bind]
              exact planFor_cases ⟨hr, haddress, hamount⟩ params o

/-- **Taking the step** writes nothing, or reserves the next account number for a new
account. -/
theorem account_cases (p : MintPlan) (o : Outages) (L : Ledger) :
    (∃ e, o .nextAccountNumber ≠ none ∧ p.account.runOn o L = (.error (.failed (.state e)), L)) ∨
    (∃ a, p.step = .replace a ∧ p.account.runOn o L = (.ok a, L)) ∨
    ∃ endTime, p.step = .create endTime ∧
      p.account.runOn o L = (.ok (newAccount p.address L.accountCounter endTime),
        L.apply L.reserveNumber) := by
  rw [MintPlan.account]
  cases p.step with
  | replace a => exact .inr (.inl ⟨a, rfl, rfl⟩)
  | create endTime =>
      simp only [StoreM.nextAccountNumber]
      rcases call_cases (·.nextAccountNumber) Outages.store_nextAccountNumber MintError.state o L
        with ⟨e, he, h⟩ | ⟨number, ws, hop, h⟩
      · exact .inl ⟨e, fun ho => absurd (he ho) nofun, by rw [runOn_bind, h]⟩
      · cases hop
        exact .inr (.inr ⟨endTime, rfl, by rw [runOn_bind_of_ok _ h]; rfl⟩)

/-- The account that a planned mint commits is the one that the lifecycle asks for, and
only one that is new takes a number. -/
lemma account_ok {plan : MintPlan} {existing : Option Account} {balance : Coins}
    {time : Timestamp} {o : Outages} {L M : Ledger} {next : Advance}
    (hstep : vestingStep existing plan.address balance time = .ok plan.step)
    (h : plan.account.runOn o L = (.ok next, M)) :
    nextAccount existing plan.address balance time (.ok L.accountCounter) = .ok next ∧
    next.account.address = plan.address ∧
    ((existing ≠ none ∧ next.transition ≠ .created ∧ M = L) ∨
      (existing = none ∧ next.transition = .created ∧ M = L.apply L.reserveNumber)) := by
  rw [nextAccount, hstep]
  rcases account_cases plan o L with ⟨e, -, h'⟩ | ⟨a, hplan, h'⟩ | ⟨endTime, hplan, h'⟩ <;>
    rw [h'] at h <;> cases h <;> rw [hplan] at hstep ⊢ <;>
    rcases vestingStep_ok hstep with ⟨hnone, _, hcreate⟩ | ⟨b, hsome, hreplace, haddress, hold⟩
  · cases hcreate
  · cases hreplace
    exact ⟨rfl, haddress, .inl ⟨hsome, hold, rfl⟩⟩
  · exact ⟨rfl, rfl, .inr ⟨hnone, rfl, rfl⟩⟩
  · cases hreplace

/-- **Carrying out the scheduled mint** stops with the account's step, stops after it
with a refused commit, or commits the account, its coins and the record together. -/
theorem carryOut_cases (p : MintPlan) (record : MintRecord) (o : Outages) (L : Ledger) :
    (∃ e, p.account.runOn o L = (.error e, L) ∧ (p.carryOut record).runOn o L = (.error e, L)) ∨
    ∃ next M, p.account.runOn o L = (.ok next, M) ∧
      ((∃ e, (o .commitMint = none → M.commitWrites next.account p.coins record = .error e) ∧
        (p.carryOut record).runOn o L = (.error (.failed (.bank e)), M)) ∨
      ∃ ws, M.commitWrites next.account p.coins record = .ok ws ∧
        (p.carryOut record).runOn o L = (.ok (record, next.transition), M.apply ws)) := by
  rw [MintPlan.carryOut]
  rcases runOn_bind_cases p.account (fun next => do
      StoreM.commitMint .bank next.account p.coins record
      return (record, next.transition)) o L with ⟨e, M, haccount, h⟩ | ⟨next, M, haccount, h⟩
  · refine .inl ⟨e, ?_⟩
    rw [h]
    rcases account_cases p o L with ⟨e', -, h'⟩ | ⟨a, -, h'⟩ | ⟨t, -, h'⟩ <;>
      rw [h'] at haccount ⊢ <;> cases haccount
    exact ⟨rfl, rfl⟩
  refine .inr ⟨next, M, haccount, ?_⟩
  rw [h, StoreM.commitMint]
  rcases update_cases (·.commitMint next.account p.coins record) (fun _ => rfl) MintError.bank o M
    with ⟨e, he, h⟩ | ⟨ws, hws, h⟩
  · exact .inl ⟨e, he, by rw [runOn_bind, h]⟩
  · exact .inr ⟨ws, hws, by rw [runOn_bind_of_ok _ h]; rfl⟩

/-- The scheduled mint stops with its checks, or is carried out as planned. -/
lemma applyScheduled_cases (ctx : BlockContext) (params : Params) (minted : Coins)
    (addressPrefix : String) (m : Mint) (o : Outages) (L : Ledger) :
    (∃ e, (planScheduled ctx params addressPrefix m).runOn o L = (.error e, L) ∧
      (applyScheduled ctx params minted addressPrefix m).runOn o L = (.error e, L)) ∨
    ∃ plan, (planScheduled ctx params addressPrefix m).runOn o L = (.ok plan, L) ∧
      (applyScheduled ctx params minted addressPrefix m).runOn o L
        = (plan.carryOut (plan.record ctx m minted)).runOn o L := by
  rw [applyScheduled]
  obtain ⟨e | plan, h, -⟩ := planScheduled_cases ctx params addressPrefix m o L
  · exact .inl ⟨e, h, by rw [runOn_bind, h]⟩
  · exact .inr ⟨plan, h, by rw [runOn_bind_of_ok _ h]⟩

/-- A planned mint and the step of its recipient's account, before the commit: a new
account has taken its number, and nothing else has changed. -/
structure Stepped (ctx : BlockContext) (addressPrefix : String) (m : Mint) (L : Ledger)
    (address : Address) (amount : UInt64) (existing : Option Account) (balance : Coins)
    (next : Advance) (M : Ledger) : Prop
    extends Screened L ctx.height addressPrefix m address amount where
  account : L.account? address = .ok existing
  held : L.balance address = .ok balance
  advance : nextAccount existing address balance ctx.time (.ok L.accountCounter) = .ok next
  own : next.account.address = address
  number : (existing ≠ none ∧ next.transition ≠ .created ∧ M = L) ∨
    (existing = none ∧ next.transition = .created ∧ M = L.apply L.reserveNumber)

/-- The ways in which a scheduled mint can end, with the ledger that each of them leaves. -/
inductive ScheduledEnds (ctx : BlockContext) (params : Params) (minted : Coins)
    (addressPrefix : String) (m : Mint) (o : Outages) (L : Ledger) :
    Except (Stop MintError) (MintRecord × Transition) → Ledger → Prop where
  | unplanned {e : Stop MintError} (h : PlanEnds ctx params addressPrefix m o L (.error e)) :
      ScheduledEnds ctx params minted addressPrefix m o L (.error e) L
  /-- Only a new account asks for a number. -/
  | unnumbered {address : Address} {amount : UInt64} {e : StateError}
      (screened : Screened L ctx.height addressPrefix m address amount)
      (account : L.account? address = .ok none) (h : o .nextAccountNumber ≠ none) :
      ScheduledEnds ctx params minted addressPrefix m o L (.error (.failed (.state e))) L
  | uncommitted {address : Address} {amount : UInt64} {existing : Option Account} {held : Coins}
      {next : Advance} {M : Ledger} {e : StateError}
      (stepped : Stepped ctx addressPrefix m L address amount existing held next M) :
      ScheduledEnds ctx params minted addressPrefix m o L (.error (.failed (.bank e))) M
  | carriedOut {address : Address} {amount : UInt64} {existing : Option Account} {held : Coins}
      {next : Advance} {M : Ledger} {record : MintRecord} {ws : List Write}
      (stepped : Stepped ctx addressPrefix m L address amount existing held next M)
      (reported : record
        = ⟨ctx.height, m.address, .ofCoin ⟨params.mintDenom, amount⟩, minted⟩)
      (h : M.commitWrites next.account record.amount record = .ok ws) :
      ScheduledEnds ctx params minted addressPrefix m o L (.ok (record, next.transition))
        (M.apply ws)

/-- **A scheduled mint** ends in one of four ways. -/
theorem applyScheduled_ends (ctx : BlockContext) (params : Params) (minted : Coins)
    (addressPrefix : String) (m : Mint) (o : Outages) (L : Ledger) :
    ∃ r M, (applyScheduled ctx params minted addressPrefix m).runOn o L = (r, M) ∧
      ScheduledEnds ctx params minted addressPrefix m o L r M := by
  obtain ⟨result, hrun, hends⟩ := planScheduled_cases ctx params addressPrefix m o L
  rcases applyScheduled_cases ctx params minted addressPrefix m o L with
    ⟨e, hplan, h⟩ | ⟨plan, hplan, h⟩ <;> rw [hplan] at hrun <;> cases hrun
  · exact ⟨_, _, h, .unplanned hends⟩
  cases hends with
  | @planned address amount existing held step screened account hheld hstep =>
      rw [h]
      rcases carryOut_cases _ _ o L with ⟨e, hnext, h⟩ | ⟨next, M, hnext, hcommit⟩
      · refine ⟨_, _, h, ?_⟩
        obtain ⟨rfl, endTime, rfl⟩ | ⟨a, -, rfl, -⟩ := vestingStep_ok hstep
        · rcases account_cases ⟨address, .ofCoin ⟨params.mintDenom, amount⟩, .create endTime⟩ o L
            with ⟨_, hnumber, h'⟩ | ⟨_, -, h'⟩ | ⟨_, -, h'⟩ <;>
            rw [h'] at hnext <;> cases hnext
          exact .unnumbered screened account hnumber
        · cases hnext
      · obtain ⟨hadvance, hown, hnumber⟩ := account_ok hstep hnext
        have hstepped : Stepped ctx addressPrefix m L address amount existing held next M :=
          ⟨screened, account, hheld, hadvance, hown, hnumber⟩
        rcases hcommit with ⟨e, -, h⟩ | ⟨ws, hws, h⟩
        · exact ⟨_, _, h, .uncommitted hstepped⟩
        · exact ⟨_, _, h, .carriedOut hstepped rfl hws⟩

/-! ### The block -/

/-- How a block ended: what it reported, and the ledger and the cache it left. -/
structure Ends (b : Except (Stop MintError) BlockOutcome × Chain)
    (result : Except (Stop MintError) BlockOutcome) (L : Ledger) (cache : MintCache) : Prop where
  result : b.1 = result
  ledger : b.2.ledger = L
  cache : b.2.cache = cache

namespace Chain

lemma run_eq {ε α : Type} {c : Chain} {o : Outages} {m : StoreM ε α}
    {r : Except (Stop ε) α} {M : Ledger}
    (h : m.runOn o c.ledger = (r, M)) : c.run o m = (r, { c with ledger := M }) := by
  simp only [run, h]

/-- **Beginning a block** stops with the subsidy; or nothing is scheduled; or the
scheduled mint is applied, is skipped, aborts the block, or takes the process down. -/
theorem beginBlock_cases (c : Chain) (s : Settings) (o : Outages) (ctx : BlockContext) :
    (∃ e L, (issueSubsidy s ctx).runOn o c.ledger = (.error e, L) ∧
      Ends (c.beginBlock s o ctx) (.error e) L c.cache) ∨
    ∃ i L, (issueSubsidy s ctx).runOn o c.ledger = (.ok i, L) ∧
      ((c.cache.lookup ctx.height = none ∧
        Ends (c.beginBlock s o ctx) (.ok (i.outcome ctx.height .none)) L
          (c.cache.finish ctx.height)) ∨
      ∃ m r M, c.cache.lookup ctx.height = some m ∧
        (applyScheduled ctx i.params i.minted c.cache.addressPrefix m).runOn o L = (r, M) ∧
        ((∃ record transition, r = .ok (record, transition) ∧
          Ends (c.beginBlock s o ctx) (.ok (i.outcome ctx.height (.applied record transition))) M
            (c.cache.finish ctx.height)) ∨
        (∃ e, r = .error (.failed e) ∧ e.isFatal = false ∧
          Ends (c.beginBlock s o ctx) (.ok (i.outcome ctx.height (.skipped m.address e))) M
            (c.cache.finish ctx.height)) ∨
        (∃ e, r = .error (.failed e) ∧ e.isFatal = true ∧
          Ends (c.beginBlock s o ctx) (.error (.failed e)) M c.cache) ∨
        (r = .error .crashed ∧ Ends (c.beginBlock s o ctx) (.error .crashed) M c.cache))) := by
  have hbegin : c.beginBlock s o ctx =
      let b := o.store.beginBlock s ctx c.ledger c.cache
      (b.result, ⟨b.state, b.cache, b.counted c.metrics⟩) := rfl
  rw [hbegin, BlockStore.beginBlock]
  rcases hissue : issueSubsidy s ctx o.store c.ledger with ⟨e | i, L⟩
  · exact .inl ⟨e, L, hissue, rfl, rfl, rfl⟩
  refine .inr ⟨i, L, hissue, ?_⟩
  cases hlookup : c.cache.lookup ctx.height with
  | none => exact .inl ⟨rfl, rfl, rfl, rfl⟩
  | some m =>
      right
      rcases happly : applyScheduled ctx i.params i.minted c.cache.addressPrefix m o.store L with
        ⟨(e | _) | ⟨record, transition⟩, M⟩
      all_goals
        refine ⟨m, _, M, rfl, happly, ?_⟩
        simp only [happly]
      · cases hfatal : e.isFatal with
        | true => exact .inr (.inr (.inl ⟨e, rfl, hfatal, rfl, rfl, rfl⟩))
        | false => exact .inr (.inl ⟨e, rfl, hfatal, rfl, rfl, rfl⟩)
      · exact .inr (.inr (.inr ⟨trivial, rfl, rfl, rfl⟩))
      · exact .inl ⟨record, transition, rfl, rfl, rfl, rfl⟩

/-- **A block** leaves the cache as it was, or it has issued its subsidy, reports that and
finishes its height in the cache. -/
theorem beginBlock_finish (c : Chain) (s : Settings) (o : Outages) (ctx : BlockContext) :
    (∃ e, (c.beginBlock s o ctx).1 = .error e ∧ (c.beginBlock s o ctx).2.cache = c.cache) ∨
    ∃ i L external, (issueSubsidy s ctx).runOn o c.ledger = (.ok i, L) ∧
      (c.beginBlock s o ctx).1 = .ok (i.outcome ctx.height external) ∧
      (c.beginBlock s o ctx).2.cache = c.cache.finish ctx.height := by
  rcases c.beginBlock_cases s o ctx with ⟨e, L, -, hends⟩ | ⟨i, L, hissue, ⟨-, hends⟩ |
    ⟨m, r, M, -, -, hhow⟩⟩
  · exact .inl ⟨e, hends.result, hends.cache⟩
  · exact .inr ⟨i, L, _, hissue, hends.result, hends.cache⟩
  rcases hhow with ⟨record, transition, -, hends⟩ | ⟨e, -, -, hends⟩ | ⟨e, -, -, hends⟩ |
    ⟨-, hends⟩
  · exact .inr ⟨i, L, _, hissue, hends.result, hends.cache⟩
  · exact .inr ⟨i, L, _, hissue, hends.result, hends.cache⟩
  · exact .inl ⟨_, hends.result, hends.cache⟩
  · exact .inl ⟨_, hends.result, hends.cache⟩

end Chain

/-! ### What the writes of a block respect -/

/-- Every write that a block can make respects a relation between ledgers. -/
structure BlockRespects (R : Ledger → Ledger → Prop) : Prop where
  minter : ∀ (L : Ledger) (m : Minter), R L (L.store (.put .minter m))
  mint : ∀ {L name coins ws}, Ledger.mintWrites L name coins = .ok ws → R L (L.apply ws)
  transfer : ∀ {L sender recipient coins ws},
    Ledger.moduleTransferWrites L sender recipient coins = .ok ws →
    R L (L.apply ws)
  number : ∀ L : Ledger, R L (L.apply L.reserveNumber)
  commit : ∀ {L account coins record ws}, Ledger.commitWrites L account coins record = .ok ws →
    R L (L.apply ws)

instance (k : Key) : Chains (Ledger.SameEntry k) := ⟨fun _ => rfl, fun h h' => Eq.trans h' h⟩

/-- The entries of the mint module itself, which tell nothing about coins, accounts or
records. -/
def Key.OfModule : Key → Prop
  | minter | params | lastBlock => True
  | _ => False

/-- **Of the module's own entries** a block writes none but the minter. -/
theorem BlockRespects.of_sameEntries {R : Ledger → Ledger → Prop}
    (hminter : ∀ (L : Ledger) (m : Minter), R L (L.store (.put .minter m)))
    (hsame : ∀ {L M : Ledger}, (∀ k : Key, k.OfModule → Ledger.SameEntry k L M) → R L M) :
    BlockRespects R := by
  have hwrites {L : Ledger} {ws : List Write} (h : ∀ w ∈ ws, ¬w.key.OfModule) : R L (L.apply ws) :=
    hsame fun k hk => L.bytes?_apply_of_ne fun w hw hkey => h w hw (hkey ▸ hk)
  refine ⟨hminter, fun h => hwrites fun w hw => ?_, fun h => hwrites fun w hw => ?_,
    fun L => hwrites ?_, fun h => hwrites fun w hw => ?_⟩
  · rcases Ledger.mintWrites_keys h w hw with hk | hk <;> rw [hk] <;> exact id
  · rcases Ledger.moduleTransferWrites_keys h w hw with hk | hk <;> rw [hk] <;> exact id
  · simp [Ledger.reserveNumber, Key.OfModule]
  · rcases Ledger.commitWrites_keys h w hw with hk | hk | hk | hk <;> rw [hk] <;> exact id

section Respects

variable {R : Ledger → Ledger → Prop} [Chains R] (hR : BlockRespects R)

include hR

lemma mintSubsidy_within (s : Settings) (ctx : BlockContext) : Within R (mintSubsidy s ctx) :=
  fun o L => by
  rcases mintSubsidy_cases s ctx o L with
    ⟨e, h⟩ | ⟨e, m, h⟩ | ⟨_, m, _, ws, -, -, -, -, hws, h⟩ <;>
    rw [h]
  · exact Chains.refl L
  · exact hR.minter L m
  · exact Chains.trans (hR.minter L _) (hR.mint hws)

lemma issueSubsidy_within (s : Settings) (ctx : BlockContext) : Within R (issueSubsidy s ctx) :=
  (mintSubsidy_within hR s ctx).bind fun _ =>
    (Within.update (fun _ => rfl) hR.transfer).bind fun _ => .pure _

lemma account_within (p : MintPlan) : Within R p.account := fun o L => by
  rcases account_cases p o L with ⟨e, -, h⟩ | ⟨a, -, h⟩ | ⟨t, -, h⟩ <;> rw [h]
  · exact Chains.refl L
  · exact Chains.refl L
  · exact hR.number L

lemma applyScheduled_within (ctx : BlockContext) (params : Params) (minted : Coins)
    (addressPrefix : String)
    (m : Mint) : Within R (applyScheduled ctx params minted addressPrefix m) := by
  have hplan : Within R (planScheduled ctx params addressPrefix m) := fun o L => by
    obtain ⟨result, h, -⟩ := planScheduled_cases ctx params addressPrefix m o L
    rw [h]
    exact Chains.refl L
  exact hplan.bind fun p => (account_within hR p).bind fun _ =>
    (Within.update (fun _ => rfl) hR.commit).bind fun _ => .pure _

/-- **A relation that every write of a block respects** holds between the ledgers before
and after the block. -/
theorem Chain.beginBlock_within (c : Chain) (s : Settings) (o : Outages) (ctx : BlockContext) :
    R c.ledger (c.beginBlock s o ctx).2.ledger := by
  have hsubsidy := issueSubsidy_within hR s ctx o c.ledger
  rcases c.beginBlock_cases s o ctx with ⟨e, L, h, hends⟩ | ⟨i, L, h, hrest⟩
  · rw [hends.ledger]
    rwa [h] at hsubsidy
  rw [h] at hsubsidy
  rcases hrest with ⟨-, hends⟩ | ⟨m, r, M, -, happly, hends⟩
  · rw [hends.ledger]
    exact hsubsidy
  have hscheduled := applyScheduled_within hR ctx i.params i.minted c.cache.addressPrefix m o L
  rw [happly] at hscheduled
  have hboth := Chains.trans (R := R) hsubsidy hscheduled
  rcases hends with ⟨_, _, -, hends⟩ | ⟨_, -, -, hends⟩ | ⟨_, -, -, hends⟩ | ⟨-, hends⟩ <;>
    rw [hends.ledger] <;>
    exact hboth

end Respects

end Mintage
