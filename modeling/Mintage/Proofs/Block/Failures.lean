import Mintage.Proofs.Block.Scheduled
import Mintage.Proofs.Schedule.Cache

/-!
What the scheduled mint leaves behind where it is not applied, and which failing calls
cost it its place in the schedule.

* `applyScheduled_failed`: a mint that is not carried out leaves the ledger as it was,
  unless its commit fails for a recipient without an account: the number of that account
  is taken by then.
* `Chain.ledger_of_not_applied`: the same for a whole block, against the ledger in which
  the subsidy was issued.
* `HandlingCall`: the calls that are made while the mint is handled, and when.
* `Chain.beginBlock_of_outage`: a failing record look-up or commit leaves the mint
  scheduled; a failing look-up of the recipient's account or balance, and a failing
  reservation of its number, drop the mint.
-/

namespace Mintage

open StoreM

/-! ### The ledger of a mint that is not applied -/

/-- The commit of a mint fails whose recipient has no account; the number of the new
account is taken by then. -/
def NumberTaken (addressPrefix : String) (m : Mint) (L : Ledger) (e : Stop MintError) : Prop :=
  (∃ cause, e = .failed (.bank cause)) ∧
    ∃ address, Address.read m.address addressPrefix = .ok address ∧ L.account? address = .ok none

/-- **A scheduled mint that is not carried out** has written nothing, or just taken the
number that a new account would have had. -/
theorem applyScheduled_failed {ctx : BlockContext} {p : Params} {minted : Coins}
    {addressPrefix : String} {m : Mint} {o : Outages} {L M : Ledger} {e : Stop MintError}
    (h : (applyScheduled ctx p minted addressPrefix m).runOn o L = (.error e, M)) :
    (NumberTaken addressPrefix m L e ∧ M = L.apply L.reserveNumber) ∨
      (¬ NumberTaken addressPrefix m L e ∧ M = L) := by
  obtain ⟨_, _, hrun, hends⟩ := applyScheduled_ends ctx p minted addressPrefix m o L
  cases hrun.symm.trans h
  cases hends with
  | unplanned hends =>
      refine .inr ⟨?_, rfl⟩
      rintro ⟨⟨cause, rfl⟩, -⟩
      cases hends
  | unnumbered =>
      refine .inr ⟨?_, rfl⟩
      rintro ⟨⟨cause, hcause⟩, -⟩
      cases hcause
  | uncommitted hstepped =>
      rcases hstepped.number with ⟨hsome, -, rfl⟩ | ⟨rfl, -, rfl⟩
      · refine .inr ⟨?_, rfl⟩
        rintro ⟨-, address, hreads, hnone⟩
        obtain rfl := Except.ok.inj (hreads.symm.trans hstepped.reads)
        exact hsome (Except.ok.inj (hstepped.account.symm.trans hnone))
      · exact .inl ⟨⟨⟨_, rfl⟩, _, hstepped.reads, hstepped.account⟩, rfl⟩

/-- A mint that is skipped has written nothing: a failed commit aborts the block. -/
lemma applyScheduled_skipped {ctx : BlockContext} {p : Params} {minted : Coins}
    {addressPrefix : String} {m : Mint} {o : Outages} {L M : Ledger} {e : MintError}
    (h : (applyScheduled ctx p minted addressPrefix m).runOn o L = (.error (.failed e), M))
    (he : e.isFatal = false) : M = L := by
  rcases applyScheduled_failed h with ⟨⟨⟨cause, hcause⟩, -⟩, -⟩ | ⟨-, hM⟩
  · cases hcause
    cases he
  · exact hM

namespace Chain

/-- A block is aborted by the commit of its mint, whose recipient has no account. -/
def NumberLost (c : Chain) (ctx : BlockContext) (L : Ledger)
    (result : Except (Stop MintError) BlockOutcome) : Prop :=
  ∃ m e, c.cache.lookup ctx.height = some m ∧ result = .error e ∧
    NumberTaken c.cache.addressPrefix m L e

/-- A block whose mint is not applied has lost the number, or has written nothing after
its subsidy. -/
lemma numberLost_cases {c : Chain} {s : Settings} {o : Outages} {ctx : BlockContext} {i : Issue}
    {L : Ledger} (hissue : (issueSubsidy s ctx).runOn o c.ledger = (.ok i, L))
    (hnone : appliedMint? (c.beginBlock s o ctx).1 = none) :
    (c.NumberLost ctx L (c.beginBlock s o ctx).1 ∧
      (c.beginBlock s o ctx).2.ledger = L.apply L.reserveNumber) ∨
    (¬ c.NumberLost ctx L (c.beginBlock s o ctx).1 ∧ (c.beginBlock s o ctx).2.ledger = L) := by
  rcases c.beginBlock_cases s o ctx with ⟨e, L', hissue', -⟩ | ⟨i', L', hissue', hrest⟩ <;>
    cases hissue'.symm.trans hissue
  rcases hrest with ⟨hlookup, hends⟩ | ⟨m, r, M, hlookup, happly, hends⟩
  · refine .inr ⟨?_, hends.ledger⟩
    rintro ⟨m, e, hm, -, -⟩
    cases hlookup.symm.trans hm
  -- an aborted block loses the number if its mint has taken it
  have haborted {e : Stop MintError} (he : r = .error e)
      (hends : Ends (c.beginBlock s o ctx) (.error e) M c.cache) :
      (c.NumberLost ctx L (c.beginBlock s o ctx).1 ∧
        (c.beginBlock s o ctx).2.ledger = L.apply L.reserveNumber) ∨
      (¬ c.NumberLost ctx L (c.beginBlock s o ctx).1 ∧ (c.beginBlock s o ctx).2.ledger = L) := by
    rw [hends.result, hends.ledger]
    rcases applyScheduled_failed (he ▸ happly) with ⟨htaken, hM⟩ | ⟨htaken, hM⟩
    · exact .inl ⟨⟨m, e, hlookup, rfl, htaken⟩, hM⟩
    · refine .inr ⟨?_, hM⟩
      rintro ⟨m', e', hm, he', hlost⟩
      obtain rfl := Option.some.inj (hlookup.symm.trans hm)
      obtain rfl := Except.error.inj he'
      exact htaken hlost
  rcases hends with ⟨record, transition, -, hends⟩ | ⟨e, rfl, he, hends⟩ | ⟨e, rfl, -, hends⟩ |
    ⟨rfl, hends⟩
  · rw [hends.result] at hnone
    cases hnone
  · refine .inr ⟨?_, hends.ledger.trans (applyScheduled_skipped happly he)⟩
    rintro ⟨_, _, -, herror, -⟩
    cases hends.result.symm.trans herror
  · exact haborted rfl hends
  · exact haborted rfl hends

/-- **A block whose mint is not applied**, against the ledger in which its subsidy was
issued: every entry but the counter of account numbers is as it was. The counter moves on
where the commit fails for a recipient without an account, and nowhere else. -/
theorem ledger_of_not_applied (c : Chain) (s : Settings) (o : Outages) (ctx : BlockContext)
    {i : Issue} {L : Ledger} (hissue : (issueSubsidy s ctx).runOn o c.ledger = (.ok i, L))
    (hnone : appliedMint? (c.beginBlock s o ctx).1 = none) :
    L.Frames (c.beginBlock s o ctx).2.ledger [.accountCounter] ∧
    (c.NumberLost ctx L (c.beginBlock s o ctx).1 →
      (c.beginBlock s o ctx).2.ledger = L.apply L.reserveNumber) ∧
    (¬ c.NumberLost ctx L (c.beginBlock s o ctx).1 → (c.beginBlock s o ctx).2.ledger = L) := by
  rcases numberLost_cases hissue hnone with ⟨hlost, hM⟩ | ⟨hkept, hM⟩ <;> rw [hM]
  · exact ⟨L.frames_reserveNumber, fun _ => rfl, fun h => absurd hlost h⟩
  · exact ⟨.refl L _, fun h => absurd h hkept, fun _ => rfl⟩

/-- The commit of the first block's mint fails: its recipient has no account, and the
number of the account that it would have had is taken. -/
theorem ledger_of_not_applied_first :
    (issueSubsidy sampleSettings firstBlock).runOn (.only .commitMint) genesisLedger
      = (.ok firstIssue, firstIssued) ∧
    appliedMint? ((sampleChain 100).beginBlock sampleSettings (.only .commitMint) firstBlock).1
      = none ∧
    ((sampleChain 100).beginBlock sampleSettings (.only .commitMint) firstBlock).2.ledger
      = firstIssued.apply firstIssued.reserveNumber := by
  have hissue : (issueSubsidy sampleSettings firstBlock).runOn (.only .commitMint) genesisLedger
      = (.ok firstIssue, firstIssued) := by
    decide +kernel
  have hfailed : ((sampleChain 100).beginBlock sampleSettings (.only .commitMint) firstBlock).1
      = .error (.failed (.bank (.storage (.stated "out of order")))) := by
    decide +kernel
  have hnone : appliedMint? ((sampleChain 100).beginBlock sampleSettings (.only .commitMint)
      firstBlock).1 = none := by
    rw [hfailed]
    rfl
  have hlost : (sampleChain 100).NumberLost firstBlock firstIssued
      ((sampleChain 100).beginBlock sampleSettings (.only .commitMint) firstBlock).1 :=
    ⟨⟨sampleRecipient, 100, 1⟩, _, by decide +kernel, hfailed, ⟨_, rfl⟩, sampleAddress,
      by decide +kernel, by decide +kernel⟩
  exact ⟨hissue, hnone, (ledger_of_not_applied (sampleChain 100) sampleSettings (.only .commitMint)
    firstBlock hissue hnone).2.1 hlost⟩

/-- A mint that is not applied can leave a trace: the subsidy of the first block leaves
the counter of account numbers at zero, the commit of its mint fails, and the counter
stands at one. -/
theorem failed_commit_takes_number :
    (issueSubsidy sampleSettings firstBlock).runOn (.only .commitMint) genesisLedger
      = (.ok firstIssue, firstIssued) ∧
    ((sampleChain 100).beginBlock sampleSettings (.only .commitMint) firstBlock).1
      = .error (.failed (.bank (.storage (.stated "out of order")))) ∧
    firstIssued.accountCounter = 0 ∧
    ((sampleChain 100).beginBlock sampleSettings (.only .commitMint)
      firstBlock).2.ledger.accountCounter = 1 := by
  decide +kernel

end Chain

/-! ### Calls that fail while a mint is handled -/

/-- A call is in order, and what it reads is there to be read. -/
def Outages.Answers {α : Type} (o : Outages) (c : StoreCall) (read : Except StateError α) (a : α) :
    Prop :=
  o c = Option.none ∧ read = .ok a

/-- The calls made while the mint scheduled for a block is handled, in a ledger in which
the subsidy is issued: each of them where those before it have answered. -/
inductive HandlingCall (ctx : BlockContext) (addressPrefix : String) (m : Mint) (o : Outages)
    (L : Ledger) : StoreCall → Prop where
  | record : HandlingCall ctx addressPrefix m o L .getMintRecord
  | account {address : Address} {amount : UInt64}
      (screened : Screened L ctx.height addressPrefix m address amount)
      (record : o .getMintRecord = none) :
      HandlingCall ctx addressPrefix m o L .getAccount
  | balance {address : Address} {amount : UInt64} {existing : Option Account}
      (screened : Screened L ctx.height addressPrefix m address amount)
      (record : o .getMintRecord = none)
      (account : o.Answers .getAccount (L.account? address) existing) :
      HandlingCall ctx addressPrefix m o L .getBalances
  /-- Only a new account takes a number. -/
  | number {address : Address} {amount : UInt64} {held : Coins} {next : VestingStep}
      (screened : Screened L ctx.height addressPrefix m address amount)
      (record : o .getMintRecord = none)
      (account : o.Answers .getAccount (L.account? address) none)
      (balance : o.Answers .getBalances (L.balance address) held)
      (step : vestingStep none address held ctx.time = .ok next) :
      HandlingCall ctx addressPrefix m o L .nextAccountNumber
  | commit {address : Address} {amount : UInt64} {existing : Option Account} {held : Coins}
      {next : VestingStep}
      (screened : Screened L ctx.height addressPrefix m address amount)
      (record : o .getMintRecord = none)
      (account : o.Answers .getAccount (L.account? address) existing)
      (balance : o.Answers .getBalances (L.balance address) held)
      (step : vestingStep existing address held ctx.time = .ok next)
      (number : existing = none → o .nextAccountNumber = none) :
      HandlingCall ctx addressPrefix m o L .commitMint

/-- The error that a failing call counts as. -/
def StoreCall.blame : StoreCall → StateError → MintError
  | .getMintRecord => .store
  | .commitMint => .bank
  | _ => .state

/-- The look-up of the record and the commit abort the block where they fail; the other
calls drop the mint. -/
lemma HandlingCall.isFatal_cases {ctx : BlockContext} {addressPrefix : String} {m : Mint}
    {o : Outages} {L : Ledger} {call : StoreCall}
    (h : HandlingCall ctx addressPrefix m o L call) (e : StateError) :
    ((call = .getMintRecord ∨ call = .commitMint) ∧ (call.blame e).isFatal = true) ∨
    ((call = .getAccount ∨ call = .getBalances ∨ call = .nextAccountNumber) ∧
      (call.blame e).isFatal = false) := by
  cases h with
  | record => exact .inl ⟨.inl rfl, rfl⟩
  | account => exact .inr ⟨.inl rfl, rfl⟩
  | balance => exact .inr ⟨.inr (.inl rfl), rfl⟩
  | number => exact .inr ⟨.inr (.inr rfl), rfl⟩
  | commit => exact .inl ⟨.inr rfl, rfl⟩

section Outage

variable {ctx : BlockContext} {p : Params} {minted : Coins} {addressPrefix : String} {m : Mint}
  {o : Outages} {L : Ledger} {address : Address} {amount : UInt64} {existing : Option Account}
  {held : Coins} {next : VestingStep} {words : String}

/-- Once a mint is screened, its recipient is looked at. -/
lemma planScheduled_of_screened (h : Screened L ctx.height addressPrefix m address amount)
    (ho : o .getMintRecord = none) :
    (planScheduled ctx p addressPrefix m).runOn o L
      = (planFor ctx.time address (.ofCoin ⟨p.mintDenom, amount⟩)).runOn o L := by
  rw [planScheduled, StoreM.getMintRecord,
    runOn_bind_of_ok _ (runOn_query_of_ok (fun _ => rfl) ho h.unrecorded)]
  simp only [h.reads, h.fits]
  rfl

/-- Where its calls answer, a screened mint is planned as its recipient's account asks. -/
lemma planScheduled_of_answers (screened : Screened L ctx.height addressPrefix m address amount)
    (record : o .getMintRecord = none)
    (account : o.Answers .getAccount (L.account? address) existing)
    (balance : o.Answers .getBalances (L.balance address) held)
    (step : vestingStep existing address held ctx.time = .ok next) :
    (planScheduled ctx p addressPrefix m).runOn o L
      = (.ok ⟨address, .ofCoin ⟨p.mintDenom, amount⟩, next⟩, L) := by
  rw [planScheduled_of_screened screened record, planFor, StoreM.getAccount,
    runOn_bind_of_ok _ (runOn_query_of_ok (fun _ => rfl) account.1 account.2), StoreM.getBalances,
    runOn_bind_of_ok _ (runOn_query_of_ok (fun _ => rfl) balance.1 balance.2), step]
  rfl

/-- **A failing call** that is made for a scheduled mint stops it with the error that the
call counts as. -/
theorem applyScheduled_of_outage {call : StoreCall}
    (hcall : HandlingCall ctx addressPrefix m o L call) (hout : o call = some words) :
    ((applyScheduled ctx p minted addressPrefix m).runOn o L).1
      = .error (.failed (call.blame (.storage (.stated words)))) := by
  rw [applyScheduled]
  cases hcall with
  | record =>
      rw [planScheduled, StoreM.getMintRecord, runOn_bind, runOn_bind,
        runOn_call_of_outage (fun _ => rfl) hout]
      rfl
  | account screened record =>
      rw [runOn_bind, planScheduled_of_screened screened record, planFor, StoreM.getAccount,
        runOn_bind, runOn_call_of_outage (fun _ => rfl) hout]
      rfl
  | balance screened record account =>
      rw [runOn_bind, planScheduled_of_screened screened record, planFor, StoreM.getAccount,
        runOn_bind_of_ok _ (runOn_query_of_ok (fun _ => rfl) account.1 account.2),
        StoreM.getBalances, runOn_bind, runOn_call_of_outage (fun _ => rfl) hout]
      rfl
  | number screened record account balance step =>
      obtain ⟨-, endTime, rfl⟩ | ⟨_, hsome, -⟩ := vestingStep_ok step
      · rw [runOn_bind_of_ok _ (planScheduled_of_answers screened record account balance step),
          MintPlan.carryOut, runOn_bind, MintPlan.account, runOn_bind, StoreM.nextAccountNumber,
          runOn_call_of_outage Outages.store_nextAccountNumber hout]
        rfl
      · exact absurd rfl hsome
  | @commit address amount existing held next screened record account balance step number =>
      rw [runOn_bind_of_ok _ (planScheduled_of_answers screened record account balance step),
        MintPlan.carryOut]
      obtain ⟨a, M, haccount⟩ : ∃ a M, (MintPlan.account
          ⟨address, .ofCoin ⟨p.mintDenom, amount⟩, next⟩).runOn o L = (.ok a, M) := by
        obtain ⟨hnone, endTime, rfl⟩ | ⟨a, -, rfl, -⟩ := vestingStep_ok step
        · rcases account_cases ⟨address, .ofCoin ⟨p.mintDenom, amount⟩, .create endTime⟩ o L with
            ⟨_, hnumber, -⟩ | ⟨a, -, h⟩ | ⟨_, -, h⟩
          · exact absurd (number hnone) hnumber
          · exact ⟨_, _, h⟩
          · exact ⟨_, _, h⟩
        · exact ⟨a, L, rfl⟩
      rw [runOn_bind_of_ok _ haccount, runOn_bind, StoreM.commitMint,
        runOn_call_of_outage (fun _ => rfl) hout]
      rfl

end Outage

/-- Why a scheduled mint is dropped: for a record, its address or its amount; or because
its recipient's account or balance could not be read, or no number be taken for a new
account. -/
inductive Dropped (ctx : BlockContext) (addressPrefix : String) (m : Mint) (o : Outages)
    (L : Ledger) : MintError → Prop where
  | recorded {r : MintRecord} (h : L.mintRecord? ctx.height = .ok (some r)) :
      Dropped ctx addressPrefix m o L (.alreadyMinted ctx.height)
  | address {e : StateError} (h : Address.read m.address addressPrefix = .error e) :
      Dropped ctx addressPrefix m o L (.invalidAddress (.cause e))
  | amount (h : toBaseUnits? m.amount = none) :
      Dropped ctx addressPrefix m o L (.invalidAmount (.cause m.amount))
  /-- The account stored for the address is another one's. -/
  | owner {address : Address} {amount : UInt64} {a : Account} {e : StateError}
      (screened : Screened L ctx.height addressPrefix m address amount)
      (account : L.account? address = .ok (some a)) (h : a.address ≠ address) :
      Dropped ctx addressPrefix m o L (.state e)
  | account {address : Address} {amount : UInt64} {e : StateError}
      (screened : Screened L ctx.height addressPrefix m address amount)
      (h : o .getAccount = none → L.account? address = .error e) :
      Dropped ctx addressPrefix m o L (.state e)
  | balance {address : Address} {amount : UInt64} {e : StateError}
      (screened : Screened L ctx.height addressPrefix m address amount)
      (h : o .getBalances = none → L.balance address = .error e) :
      Dropped ctx addressPrefix m o L (.state e)
  | number {address : Address} {amount : UInt64} {e : StateError}
      (screened : Screened L ctx.height addressPrefix m address amount)
      (account : L.account? address = .ok none) (h : o .nextAccountNumber ≠ none) :
      Dropped ctx addressPrefix m o L (.state e)

/-- **A scheduled mint that fails without aborting the block** has such a reason. -/
theorem applyScheduled_dropped {ctx : BlockContext} {p : Params} {minted : Coins}
    {addressPrefix : String} {m : Mint} {o : Outages} {L M : Ledger} {e : MintError}
    (h : (applyScheduled ctx p minted addressPrefix m).runOn o L = (.error (.failed e), M))
    (he : e.isFatal = false) : Dropped ctx addressPrefix m o L e := by
  obtain ⟨_, _, hrun, hends⟩ := applyScheduled_ends ctx p minted addressPrefix m o L
  cases hrun.symm.trans h
  cases hends with
  | unnumbered screened account hnumber => exact .number screened account hnumber
  | uncommitted => cases he
  | unplanned hends =>
      cases hends with
      | recordUnread => cases he
      | recorded hr => exact .recorded hr
      | badAddress hread => exact .address hread
      | badAmount hfits => exact .amount hfits
      | accountUnread screened hread => exact .account screened hread
      | balanceUnread screened hread => exact .balance screened hread
      | @refused address _ existing balance _ screened account hstep =>
          rcases vestingStep_cases existing address balance ctx.time with
            ⟨a, rfl, howner, -⟩ | ⟨-, ⟨-, hcrash⟩ | ⟨-, step, htaken⟩⟩
          · exact .owner screened account howner
          · cases hcrash.symm.trans hstep
          · cases htaken.symm.trans hstep

/-- **A call that fails while a mint is handled**, once the subsidy is issued, and what it
costs. Where the record cannot be looked up or the commit is refused, the block is
aborted, and the mint stays scheduled. Where the recipient's account or balance cannot be
read, or no number be taken for it, the mint is skipped and its height is finished. A
mint is skipped for these reasons, or for a record, its address or its amount. -/
theorem Chain.beginBlock_of_outage (c : Chain) (s : Settings) (o : Outages) (ctx : BlockContext)
    {i : Issue} {L : Ledger} {m : Mint}
    (hissue : (issueSubsidy s ctx).runOn o c.ledger = (.ok i, L))
    (hlookup : c.cache.lookup ctx.height = some m) :
    (∀ call words, HandlingCall ctx c.cache.addressPrefix m o L call → o call = some words →
      ((call = .getMintRecord ∨ call = .commitMint) ∧
        (call.blame (.storage (.stated words))).isFatal = true ∧
        (c.beginBlock s o ctx).1 = .error (.failed (call.blame (.storage (.stated words)))) ∧
        (c.beginBlock s o ctx).2.cache.lookup ctx.height = some m) ∨
      ((call = .getAccount ∨ call = .getBalances ∨ call = .nextAccountNumber) ∧
        (c.beginBlock s o ctx).1 = .ok (i.outcome ctx.height
          (.skipped m.address (call.blame (.storage (.stated words))))) ∧
        (ctx.height.toNat + 1 < UInt64.size →
          (c.beginBlock s o ctx).2.cache.lookup ctx.height = none))) ∧
    ∀ outcome address e, (c.beginBlock s o ctx).1 = .ok outcome →
      outcome.external = .skipped address e →
      address = m.address ∧ Dropped ctx c.cache.addressPrefix m o L e := by
  rcases c.beginBlock_cases s o ctx with ⟨e, L', hissue', -⟩ | ⟨i', L', hissue', hrest⟩ <;>
    cases hissue'.symm.trans hissue
  rcases hrest with ⟨hnone, -⟩ | ⟨m', r, M, hlookup', happly, hends⟩
  · cases hlookup.symm.trans hnone
  obtain rfl := Option.some.inj (hlookup.symm.trans hlookup')
  constructor
  · intro call words hcall hout
    have hr : r = .error (.failed (call.blame (.storage (.stated words)))) := by
      have h : ((applyScheduled ctx i.params i.minted c.cache.addressPrefix m).runOn o L).1 = _ :=
        applyScheduled_of_outage hcall hout
      rwa [happly] at h
    rcases hends with ⟨_, _, hr', -⟩ | ⟨e, hr', he, hends⟩ | ⟨e, hr', he, hends⟩ | ⟨hr', -⟩ <;>
      cases hr.symm.trans hr' <;>
      rcases hcall.isFatal_cases (.storage (.stated words)) with ⟨hwhich, hfatal⟩ | ⟨hwhich, hfatal⟩
    · cases he.symm.trans hfatal
    · refine .inr ⟨hwhich, hends.result, fun hheight => ?_⟩
      rw [hends.cache, MintCache.finish, MintCache.lookup_prune]
      exact c.cache.lookup_markProcessed_of_le hheight UInt64.le_rfl
    · exact .inl ⟨hwhich, he, hends.result, by rwa [hends.cache]⟩
    · cases he.symm.trans hfatal
  · intro outcome address e hok hskipped
    rcases hends with ⟨_, _, -, hends⟩ | ⟨e', rfl, he, hends⟩ | ⟨_, -, -, hends⟩ | ⟨-, hends⟩ <;>
      cases hends.result.symm.trans hok <;> cases hskipped
    exact ⟨rfl, applyScheduled_dropped happly he⟩

namespace Chain

/-- The account of the first block's recipient cannot be read: its mint is no longer
scheduled. -/
theorem beginBlock_of_outage_first :
    (issueSubsidy sampleSettings firstBlock).runOn (.only .getAccount) genesisLedger
      = (.ok firstIssue, firstIssued) ∧
    (sampleChain 100).cache.lookup firstBlock.height = some ⟨sampleRecipient, 100, 1⟩ ∧
    ((sampleChain 100).beginBlock sampleSettings (.only .getAccount) firstBlock).2.cache.lookup
      firstBlock.height = none := by
  have hissue : (issueSubsidy sampleSettings firstBlock).runOn (.only .getAccount) genesisLedger
      = (.ok firstIssue, firstIssued) := by
    decide +kernel
  have hlookup : (sampleChain 100).cache.lookup firstBlock.height
      = some ⟨sampleRecipient, 100, 1⟩ := by
    decide +kernel
  have hscreened : Screened firstIssued firstBlock.height (sampleChain 100).cache.addressPrefix
      ⟨sampleRecipient, 100, 1⟩ sampleAddress 10000000000 :=
    ⟨by decide +kernel, by decide +kernel, by decide +kernel⟩
  obtain ⟨hcalls, -⟩ :=
    beginBlock_of_outage (sampleChain 100) sampleSettings (.only .getAccount) firstBlock hissue
      hlookup
  rcases hcalls .getAccount "out of order" (.account hscreened rfl) rfl with
    ⟨hcall | hcall, -⟩ | ⟨-, -, hdropped⟩
  · cases hcall
  · cases hcall
  · exact ⟨hissue, hlookup, hdropped (by decide)⟩

/-- A failing store can lose a scheduled mint: the account of the first block's recipient
cannot be read, and the block is finished without the mint and without an error. -/
theorem unread_account_drops_mint :
    (issueSubsidy sampleSettings firstBlock).runOn (.only .getAccount) genesisLedger
      = (.ok firstIssue, firstIssued) ∧
    (sampleChain 100).cache.lookup 1 = some ⟨sampleRecipient, 100, 1⟩ ∧
    ((sampleChain 100).beginBlock sampleSettings (.only .getAccount) firstBlock).1
      = .ok (firstIssue.outcome 1
        (.skipped sampleRecipient (.state (.storage (.stated "out of order"))))) ∧
    ((sampleChain 100).beginBlock sampleSettings (.only .getAccount) firstBlock).2.cache.lookup 1
      = none := by
  decide +kernel

end Chain

end Mintage
