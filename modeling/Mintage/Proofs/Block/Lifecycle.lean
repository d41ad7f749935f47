import Mintage.Proofs.Block.Effect

/-!
The accounts of a chain. An account changes only in a block that applies its scheduled
mint to it, and then by one step of the lifecycle.

* `Ledger.Moves`: what can become of the accounts and of the counter of their numbers. A
  block moves them in one of these two ways (`Chain.beginBlock_moves`), and nothing else
  moves them (`Chain.step_moves`).
* `Chain.lifecycle_one_way`: over every run, an account takes the steps that are reported
  for it and no others, keeps what names it, never falls back, and stays as it is once it
  is periodic.
-/

namespace Mintage

open StoreM Ledger

/-- How a change treats the accounts of a ledger and the counter of their numbers. It is
about the account that takes a step, if there is one, and about whether a number is
taken. -/
inductive Ledger.Moves (L M : Ledger) : Option (String × Transition) → Bool → Prop where
  /-- A number can be taken without an account for it. -/
  | untouched {taken : Bool} (accounts : ∀ a, SameEntry (.account a) L M)
      (counter : M.accountCounter
        = if taken then Word.next L.accountCounter else L.accountCounter) :
      L.Moves M none taken
  | stepped {address : Address} {existing : Option Account} {next : Advance} {taken : Bool}
      (before : L.account? address = .ok existing)
      (after : M.account? address = .ok (some next.account))
      (step : LifecycleStep existing next.transition next.account)
      (own : next.account.address = address)
      (others : ∀ a, a ≠ address.encoded → SameEntry (.account a) L M)
      (number : existing = none →
        taken = true ∧ next.account.base.accountNumber = L.accountCounter)
      (counter : M.accountCounter
        = if taken then Word.next L.accountCounter else L.accountCounter) :
      L.Moves M (some (address.encoded, next.transition)) taken

namespace Ledger

variable {L M N : Ledger}

lemma accountCounter_of_sameEntry (h : SameEntry .accountCounter L M) :
    M.accountCounter = L.accountCounter := by
  rw [accountCounter, h, accountCounter]

lemma Moves.refl (L : Ledger) : L.Moves L none false := .untouched (fun _ => rfl) rfl

/-- What leaves the accounts and the counter alone moves nothing. -/
lemma Moves.of_frames {keys : List Key} (h : L.Frames M keys)
    (haccounts : ∀ a, .account a ∉ keys) (hcounter : .accountCounter ∉ keys) :
    L.Moves M none false :=
  .untouched (fun a => h _ (haccounts a)) (accountCounter_of_sameEntry (h _ hcounter))

/-- A move counts from where the accounts and the counter were last touched. -/
lemma Moves.after {moved : Option (String × Transition)} {taken : Bool}
    (h : L.Moves M none false) (h' : M.Moves N moved taken) : L.Moves N moved taken := by
  cases h with
  | untouched haccounts hcounter =>
      have hcounter : M.accountCounter = L.accountCounter := by simpa using hcounter
      cases h' with
      | untouched haccounts' hcounter' =>
          exact .untouched (fun a => (haccounts' a).trans (haccounts a)) (hcounter ▸ hcounter')
      | stepped hbefore hafter hstep hown hothers hnumber hcounter' =>
          exact .stepped ((load?_of_sameEntry (haccounts _)).symm.trans hbefore) hafter hstep hown
            (fun a ha => (hothers a ha).trans (haccounts a)) (hcounter ▸ hnumber)
            (hcounter ▸ hcounter')

/-- No account has moved, and no number is taken. -/
def Still (L M : Ledger) : Prop := L.Moves M none false

instance : Chains Still := ⟨Moves.refl, Moves.after⟩

lemma store_minter_still (L : Ledger) (m : Minter) : L.Still (L.store (.put .minter m)) :=
  .of_frames (L.frames_store (.put .minter m)) (by simp [Write.put]) (by simp [Write.put])

lemma store_params_still (L : Ledger) (p : Params) : L.Still (L.store (.put .params p)) :=
  .of_frames (L.frames_store (.put .params p)) (by simp [Write.put]) (by simp [Write.put])

/-- Taking a number moves the counter, and no account. -/
lemma reserveNumber_moves (L : Ledger) (taken : Bool) :
    L.Moves (if taken then L.apply L.reserveNumber else L) none taken := by
  cases taken with
  | false => exact .refl L
  | true =>
      exact .untouched (fun a => L.frames_reserveNumber _ (by simp))
        (accountCounter_reserveNumber L)

end Ledger

/-! ### The scheduled mint -/

/-- Whether the step of a planned mint takes an account number: the account is new, and
the call for its number is in order. -/
def MintPlan.takesNumber (p : MintPlan) (o : Outages) : Bool :=
  match p.step with
  | .create _ => (o .nextAccountNumber).isNone
  | .replace _ => false

/-- The call for a number takes one, or writes nothing. -/
lemma nextAccountNumber_ledger (wrap : StateError → MintError) (o : Outages) (L : Ledger) :
    ((StoreM.nextAccountNumber wrap).runOn o L).2
      = if (o .nextAccountNumber).isNone then L.apply L.reserveNumber else L := by
  rw [StoreM.nextAccountNumber]
  cases ho : o .nextAccountNumber with
  | none => rw [runOn_call_of_ok Outages.store_nextAccountNumber ho rfl]; rfl
  | some words => rw [runOn_call_of_outage Outages.store_nextAccountNumber ho]; rfl

/-- Taking the step takes a number, or writes nothing. -/
lemma account_ledger (p : MintPlan) (o : Outages) (L : Ledger) :
    (p.account.runOn o L).2 = if p.takesNumber o then L.apply L.reserveNumber else L := by
  rw [MintPlan.account, MintPlan.takesNumber]
  cases p.step with
  | replace a => rfl
  | create endTime =>
      rw [← nextAccountNumber_ledger .state, runOn_bind]
      rcases (StoreM.nextAccountNumber MintError.state).runOn o L with ⟨e | number, M⟩ <;> rfl

/-- A step that is taken for a new account has taken a number. -/
lemma takesNumber_of_create {p : MintPlan} {o : Outages} {L M : Ledger} {next : Advance}
    {endTime : Int64} (hcreate : p.step = .create endTime)
    (h : p.account.runOn o L = (.ok next, M)) : p.takesNumber o = true := by
  rw [MintPlan.account, hcreate] at h
  rw [MintPlan.takesNumber, hcreate]
  cases ho : o .nextAccountNumber with
  | none => rfl
  | some words =>
      simp only [StoreM.nextAccountNumber] at h
      rw [runOn_bind, runOn_call_of_outage Outages.store_nextAccountNumber ho] at h
      cases h

/-- The account that a scheduled mint is applied to, and the step it takes. -/
def appliedTo? (result : Except (Stop MintError) (MintRecord × Transition)) :
    Option (String × Transition) :=
  match result with
  | .ok (record, transition) => some (record.account, transition)
  | .error _ => none

/-- Whether a scheduled mint takes an account number, as it was planned. -/
def planTakesNumber (plan : Except (Stop MintError) MintPlan) (o : Outages) : Bool :=
  match plan with
  | .ok p => p.takesNumber o
  | .error _ => false

/-- A planned mint that is carried out moves the account of its recipient by one step; one
that is not moves no account, and can have taken a number. -/
lemma carryOut_moves {plan : MintPlan} {record : MintRecord} {existing : Option Account}
    {held : Coins} {time : Timestamp} {o : Outages} {L M : Ledger}
    {r : Except (Stop MintError) (MintRecord × Transition)}
    (haccount : L.account? plan.address = .ok existing)
    (hstep : vestingStep existing plan.address held time = .ok plan.step)
    (hrecord : record.account = plan.address.encoded)
    (h : (plan.carryOut record).runOn o L = (r, M)) :
    L.Moves M (appliedTo? r) (plan.takesNumber o) := by
  have htake := L.reserveNumber_moves (plan.takesNumber o)
  rw [← account_ledger] at htake
  rcases carryOut_cases plan record o L with ⟨e, hnext, h'⟩ | ⟨next, N, hnext, hcommit⟩ <;>
    rw [hnext] at htake
  · cases h'.symm.trans h
    exact htake
  rcases hcommit with ⟨e, -, h'⟩ | ⟨ws, hws, h'⟩ <;> cases h'.symm.trans h
  · exact htake
  obtain ⟨hadvance, hown, -⟩ := account_ok hstep hnext
  obtain ⟨hmove, hnumber⟩ := nextAccount_step hadvance
  have hcommit : N.Frames (N.apply ws) [.account plan.address.encoded,
      .balance plan.address.encoded, .supply, .mintRecord record.blockHeight] :=
    N.frames_apply fun w hw => by simpa [hown] using commitWrites_keys hws w hw
  have hnew (hnone : existing = none) : plan.takesNumber o = true := by
    obtain ⟨-, endTime, hcreate⟩ | ⟨_, hsome, -⟩ := vestingStep_ok hstep
    · exact takesNumber_of_create hcreate hnext
    · exact absurd hnone hsome
  cases htake with
  | untouched haccounts hcounter =>
      rw [appliedTo?, hrecord]
      refine .stepped haccount (hown ▸ (commitWrites_reads hws).1) hmove hown (fun a ha => ?_)
        (fun hnone => ⟨hnew hnone, hnumber hnone⟩) ?_
      · exact (hcommit (.account a) (by simpa using ha)).trans (haccounts a)
      · rw [accountCounter_of_sameEntry (hcommit .accountCounter (by simp)), hcounter]

/-- **A scheduled mint** moves the account that it is applied to by one step, and no
account where it is not applied. -/
theorem applyScheduled_moves {ctx : BlockContext} {params : Params} {minted : Coins}
    {addressPrefix : String} {m : Mint} {o : Outages} {L M : Ledger}
    {r : Except (Stop MintError) (MintRecord × Transition)}
    (h : (applyScheduled ctx params minted addressPrefix m).runOn o L = (r, M)) :
    L.Moves M (appliedTo? r)
      (planTakesNumber ((planScheduled ctx params addressPrefix m).runOn o L).1 o) := by
  obtain ⟨result, hresult, hends⟩ := planScheduled_cases ctx params addressPrefix m o L
  rcases applyScheduled_cases ctx params minted addressPrefix m o L with
    ⟨e, hplan, h'⟩ | ⟨plan, hplan, h'⟩ <;>
    rw [hplan] at hresult ⊢ <;> cases hresult <;> rw [h'] at h
  · cases h
    exact .refl L
  cases hends with
  | planned screened account _ hstep =>
      exact carryOut_moves account hstep (Address.encoded_of_read screened.reads).symm h

/-! ### The block -/

namespace Chain

/-- Whom a block reports its scheduled mint as applied to, and the step of the account. -/
def blockMove? (result : Except (Stop MintError) BlockOutcome) : Option (String × Transition) :=
  match result with
  | .ok ⟨_, _, _, .applied record transition⟩ => some (record.account, transition)
  | _ => none

/-- Whether a block takes an account number: the mint scheduled for it passes its checks,
its recipient has no account, and the call for a number is in order. -/
def takesNumber (c : Chain) (s : Settings) (o : Outages) (ctx : BlockContext) : Bool :=
  match (issueSubsidy s ctx).runOn o c.ledger with
  | (.error _, _) => false
  | (.ok i, L) =>
      match c.cache.lookup ctx.height with
      | none => false
      | some m =>
          planTakesNumber ((planScheduled ctx i.params c.cache.addressPrefix m).runOn o L).1 o

/-- **A block** moves the account that it reports its mint as applied to by one step, and
no account otherwise. -/
theorem beginBlock_moves (c : Chain) (s : Settings) (o : Outages) (ctx : BlockContext) :
    c.ledger.Moves (c.beginBlock s o ctx).2.ledger (blockMove? (c.beginBlock s o ctx).1)
      (c.takesNumber s o ctx) := by
  have hissued (L : Ledger) (r : Except (Stop MintError) Issue)
      (h : (issueSubsidy s ctx).runOn o c.ledger = (r, L)) : c.ledger.Moves L none false := by
    have hframes := issueSubsidy_frames s ctx o c.ledger
    rw [h] at hframes
    exact .of_frames hframes (by simp [Settings.issueKeys]) (by simp [Settings.issueKeys])
  rw [takesNumber]
  rcases c.beginBlock_cases s o ctx with ⟨e, L, hissue, hends⟩ | ⟨i, L, hissue, hrest⟩
  · rw [hends.result, hends.ledger, hissue]
    exact hissued L _ hissue
  simp only [hissue]
  rcases hrest with ⟨hlookup, hends⟩ | ⟨m, r, M, hlookup, happly, hends⟩ <;> rw [hlookup]
  · rw [hends.result, hends.ledger]
    exact hissued L _ hissue
  have hmoves := (hissued L _ hissue).after (applyScheduled_moves happly)
  rcases hends with ⟨record, transition, rfl, hends⟩ | ⟨e, rfl, -, hends⟩ | ⟨e, rfl, -, hends⟩ |
    ⟨rfl, hends⟩ <;>
    rw [hends.result, hends.ledger] <;> exact hmoves

/-! ### Runs -/

/-- What a step does to accounts: a block moves the one that it reports. -/
def stepMove? : Chain × ChainStep → Option (String × Transition)
  | (c, .beginBlock s o ctx) => blockMove? (c.beginBlock s o ctx).1
  | _ => none

/-- Whether a step takes an account number. -/
def stepTakesNumber : Chain × ChainStep → Bool
  | (c, .beginBlock s o ctx) => c.takesNumber s o ctx
  | _ => false

/-- **One step** moves the account that a block reports, and no account otherwise. -/
theorem step_moves (c : Chain) (e : ChainStep) :
    c.ledger.Moves (c.step e).ledger (stepMove? (c, e)) (stepTakesNumber (c, e)) := by
  have hstill {α : Type} {m : MintM Ledger α} (hm : Within Still m) (o : Outages) :
      c.ledger.Still (c.run o m).2.ledger := hm o c.ledger
  cases e with
  | beginBlock s o ctx => exact c.beginBlock_moves s o ctx
  | merge _ => exact .refl _
  | restart _ => exact .refl _
  | initGenesis o g =>
      exact hstill (MintM.initGenesis_within store_minter_still store_params_still g) o
  | ensureGenesis o p =>
      exact hstill (MintM.ensureGenesis_within store_minter_still store_params_still p) o
  | setParams o p => exact hstill (MintM.setParams_within store_params_still p) o
  | writeParams o p => exact hstill (MintM.writeParams_within store_params_still _ p) o
  | writeMinter o m => exact hstill (MintM.writeMinter_within store_minter_still _ m) o

/-- The step of the lifecycle that a step of a chain takes an address's account through. -/
def transitionOf? (a : Address) (e : Chain × ChainStep) : Option Transition :=
  match stepMove? e with
  | some (address, transition) => if address = a.encoded then some transition else none
  | none => none

/-- **An account changes** only by the step that is reported for it. -/
theorem account?_step (c : Chain) (e : ChainStep) (a : Address) :
    match transitionOf? a (c, e) with
    | none => (c.step e).ledger.account? a = c.ledger.account? a
    | some transition => ∃ existing next, c.ledger.account? a = .ok existing ∧
        (c.step e).ledger.account? a = .ok (some next) ∧
        LifecycleStep existing transition next ∧ next.address.encoded = a.encoded := by
  rw [transitionOf?]
  have hmoves := c.step_moves e
  generalize stepMove? (c, e) = moved at *
  cases hmoves with
  | untouched haccounts _ => exact load?_of_sameEntry (haccounts a.encoded)
  | @stepped address existing next _ hbefore hafter hstep hown hothers _ _ =>
      by_cases ha : address.encoded = a.encoded
      · simp only [if_pos ha]
        rw [account?, ha] at hbefore hafter
        exact ⟨existing, next.account, hbefore, hafter, hstep, hown ▸ ha⟩
      · simp only [if_neg ha]
        exact load?_of_sameEntry (hothers a.encoded fun h => ha h.symm)

/-- An account stays what it is, or becomes something it can become. -/
lemma becomes_step (c : Chain) (e : ChainStep) {a : Address} {account : Account}
    (h : c.ledger.account? a = .ok (some account)) :
    ∃ later, (c.step e).ledger.account? a = .ok (some later) ∧ account.Becomes later := by
  have hstep := c.account?_step e a
  split at hstep
  · exact ⟨account, hstep.trans h, .refl account⟩
  · obtain ⟨existing, next, hbefore, hafter, hlifecycle, -⟩ := hstep
    obtain rfl : existing = some account := Except.ok.inj (hbefore.symm.trans h)
    exact ⟨next, hafter, hlifecycle.becomes⟩

/-- Over a run too, an account becomes nothing but what it can become. -/
lemma becomes_run {c : Chain} {a : Address} {account : Account}
    (h : c.ledger.account? a = .ok (some account)) (run : List ChainStep) :
    ∃ later, (runAll step c run).ledger.account? a = .ok (some later) ∧ account.Becomes later := by
  refine run_invariant (I := fun d : Chain => ∃ later, d.ledger.account? a = .ok (some later) ∧
    account.Becomes later) (fun d e hd => ?_) ⟨account, h, .refl account⟩ run
  obtain ⟨later, hlater, hbecomes⟩ := hd
  obtain ⟨last, hlast, hnext⟩ := d.becomes_step e hlater
  exact ⟨last, hlast, hbecomes.trans hnext⟩

/-- **Accounts go one way.** Over every run of a chain, whatever ledger and cache it starts
with and whichever calls fail, the account of an address changes only in a block that
applies its mint to that address, and then by the step of the lifecycle that the block
reports. Once there is an account, it keeps its address, its key, its number and its
sequence; it never falls back; and from when it is periodic it stays the same. -/
theorem lifecycle_one_way (c : Chain) (run : List ChainStep) (a : Address) :
    (∀ e ∈ history step c run,
      match transitionOf? a e with
      | none => (e.1.step e.2).ledger.account? a = e.1.ledger.account? a
      | some transition => ∃ existing next, e.1.ledger.account? a = .ok existing ∧
          (e.1.step e.2).ledger.account? a = .ok (some next) ∧
          LifecycleStep existing transition next ∧ next.address.encoded = a.encoded) ∧
    ∀ past future account, run = past ++ future →
      (runAll step c past).ledger.account? a = .ok (some account) →
      ∃ later, (runAll step c run).ledger.account? a = .ok (some later) ∧
        account.Becomes later := by
  refine ⟨fun e _ => e.1.account?_step e.2 a, ?_⟩
  rintro past future account rfl h
  rw [runAll_append]
  exact becomes_run h future

/-- A first block. -/
def firstSteps : List ChainStep := [.beginBlock sampleSettings .none firstBlock]

/-- What comes after it: another snapshot and a second block. -/
def laterSteps : List ChainStep :=
  [.merge (sampleFeed 50), .beginBlock sampleSettings .none ⟨2, .epoch, some .epoch⟩]

/-- The account that the first block of a new chain makes for its recipient is there after
the second block too, with the address and the number that it was made with. -/
theorem lifecycle_one_way_first :
    (runAll step (sampleChain 100) firstSteps).ledger.account? sampleAddress
      = .ok (some (.delayed (.new sampleAddress 0) .zero 315360000)) ∧
    ∃ later, (runAll step (sampleChain 100) (firstSteps ++ laterSteps)).ledger.account?
        sampleAddress = .ok (some later) ∧ later.base = .new sampleAddress 0 := by
  have hmade : (runAll step (sampleChain 100) firstSteps).ledger.account? sampleAddress
      = .ok (some (.delayed (.new sampleAddress 0) .zero 315360000)) := by
    decide +kernel
  obtain ⟨later, hlater, hbecomes⟩ := (lifecycle_one_way (sampleChain 100)
    (firstSteps ++ laterSteps) sampleAddress).2 firstSteps laterSteps _ rfl hmade
  exact ⟨hmade, later, hlater, hbecomes.base⟩

end Chain

end Mintage
