import Mintage.Account.Vesting
import Mintage.Block.Genesis
import Mintage.Emission.Subsidy
import Mintage.Schedule.Cache

/-!
What happens at the beginning of a block. The minter takes over the halving interval of
the parameters; the subsidy is minted and handed to the fee collector; then the mint
scheduled for the height is carried out.

* A failure before the scheduled mint aborts the block.
* A scheduled mint that fails its own checks is dropped, and the height counts as
  finished; a failing bank or store aborts the block, and the mint stays for a retry.
-/

namespace Mintage

/-- The module whose account the subsidy passes through. -/
def mintModule : String := "ugdmint"

/-- What the mint module is configured with. -/
structure Settings where
  /-- The module that receives the subsidy. -/
  feeCollector : String
  /-- Reported with every block. -/
  bondedRatio : Dec
  deriving DecidableEq

/-- The block to begin. -/
structure BlockContext where
  height : UInt64
  time : Timestamp
  /-- The time of the block before, if there was one. -/
  previous : Option Timestamp
  deriving DecidableEq

/-- What a block reports once its subsidy is minted. -/
structure MintEvent where
  bondedRatio : Dec
  subsidyHalvingInterval : Dec
  /-- The subsidy in base units. -/
  amount : UInt64
  deriving DecidableEq

namespace MintEvent

/-- The type that the event is emitted under. -/
def eventType : String := "ugdmint"

/-- The event's values, by name. -/
def attributes (e : MintEvent) : List (String × String) :=
  [("bonded_ratio", e.bondedRatio.text),
    ("subsidy_halving_interval", e.subsidyHalvingInterval.text),
    ("amount", toString e.amount.toNat)]

/-- The event on one line: its type, and its values by name. -/
def text (e : MintEvent) : String :=
  String.join (eventType :: e.attributes.map fun a => " " ++ a.1 ++ "=" ++ a.2)

end MintEvent

/-- What became of the mint scheduled for a block. -/
inductive ExternalMint where
  | none
  | applied (record : MintRecord) (transition : Transition)
  | skipped (address : String) (error : MintError)
  deriving DecidableEq

/-- What a finished block reports. -/
structure BlockOutcome where
  height : UInt64
  provision : Coin
  event : MintEvent
  external : ExternalMint
  deriving DecidableEq

/-- What the node counts. -/
structure Metrics where
  refreshes : Nat
  refreshFailures : Nat
  entriesSkipped : Nat
  cacheSize : Nat
  mintedTokens : Nat
  externalMints : Nat
  externalMintFailures : Nat
  beginBlocks : Nat
  deriving DecidableEq

/-- Nothing is counted yet. -/
def Metrics.zero : Metrics := ⟨0, 0, 0, 0, 0, 0, 0, 0⟩

/-! ### The subsidy -/

/-- What is known once the subsidy is minted. -/
structure Issue where
  params : Params
  provision : Coin
  event : MintEvent
  deriving DecidableEq

/-- The subsidy as a set of coins. -/
def Issue.minted (i : Issue) : Coins :=
  .ofCoin i.provision

/-- The subsidy of a block, for a minter in line with the parameters. -/
def Issue.compute (s : Settings) (ctx : BlockContext) (params : Params) (minter : Minter) : Issue :=
  let provision := minter.blockProvision params ctx.height ctx.time (ctx.previous.getD ctx.time)
  ⟨params, provision, ⟨s.bondedRatio, minter.subsidyHalvingInterval, provision.amount⟩⟩

/-- The report of a block that is finished. -/
def Issue.outcome (i : Issue) (height : UInt64) (external : ExternalMint) : BlockOutcome :=
  ⟨height, i.provision, i.event, external⟩

section

variable {σ : Type}

/-- Brings the minter in line and mints the subsidy. -/
def mintSubsidy (s : Settings) (ctx : BlockContext) : MintM σ Issue := do
  let params ← MintM.params
  let minter := (← MintM.minter).syncWith params
  MintM.setMinter minter
  let i := Issue.compute s ctx params minter
  StoreM.mintCoins .bank mintModule i.minted
  return i

/-- Mints the subsidy and hands it to the fee collector. -/
def issueSubsidy (s : Settings) (ctx : BlockContext) : MintM σ Issue := do
  let i ← mintSubsidy s ctx
  StoreM.sendToModule .bank mintModule s.feeCollector i.minted
  return i

/-! ### The scheduled mint -/

/-- Whole tokens in base units, where that fits. -/
def toBaseUnits? (amount : Int64) : Option UInt64 :=
  Word.ofInt? (amount.toInt * unitsPerToken)

/-- A scheduled mint that passed its checks: who gets what, and the step that the
recipient's account takes. -/
structure MintPlan where
  address : Address
  coins : Coins
  step : VestingStep
  deriving DecidableEq

/-- Plans coins for a recipient, whose account takes the step that it asks for. Nothing is
written. -/
def planFor (time : Timestamp) (address : Address) (coins : Coins) : MintM σ MintPlan := do
  let existing ← StoreM.getAccount .state address
  let balance ← StoreM.getBalances .state address
  match vestingStep existing address balance time with
  | .ok step => return ⟨address, coins, step⟩
  | .error (.failed e) => StoreM.fail (.state e)
  | .error .crashed => StoreM.crash

/-- Checks the scheduled mint against what is stored. Nothing is written. -/
def planScheduled (ctx : BlockContext) (params : Params) (addressPrefix : String) (m : Mint) :
    MintM σ MintPlan := do
  if (← StoreM.getMintRecord .store ctx.height).isSome then
    StoreM.fail (.alreadyMinted ctx.height)
  let address ← match Address.read m.address addressPrefix with
    | .ok a => pure a
    | .error e => StoreM.fail (.invalidAddress (.cause e))
  let amount ← match toBaseUnits? m.amount with
    | some n => pure n
    | none => StoreM.fail (.invalidAmount (.cause m.amount))
  planFor ctx.time address (.ofCoin ⟨params.mintDenom, amount⟩)

/-- The recipient's account after its step; a new account takes the next number. -/
def MintPlan.account (p : MintPlan) : MintM σ Advance :=
  match p.step with
  | .replace a => pure a
  | .create endTime => do
      let number ← StoreM.nextAccountNumber .state
      return newAccount p.address number endTime

/-- The record of a scheduled mint that is carried out. -/
def MintPlan.record (p : MintPlan) (ctx : BlockContext) (m : Mint) (minted : Coins) : MintRecord :=
  ⟨ctx.height, m.address, p.coins, minted⟩

/-- Commits the recipient's account after its step, its coins and the record. -/
def MintPlan.carryOut (p : MintPlan) (record : MintRecord) :
    MintM σ (MintRecord × Transition) := do
  let next ← p.account
  StoreM.commitMint .bank next.account p.coins record
  return (record, next.transition)

/-- Checks the scheduled mint and carries it out. -/
def applyScheduled (ctx : BlockContext) (params : Params) (minted : Coins)
    (addressPrefix : String) (m : Mint) : MintM σ (MintRecord × Transition) := do
  let plan ← planScheduled ctx params addressPrefix m
  plan.carryOut (plan.record ctx m minted)

end

/-! ### The block -/

namespace Metrics

/-- A block counted. -/
def countBegun (m : Metrics) : Metrics :=
  { m with beginBlocks := m.beginBlocks + 1 }

/-- The subsidy of a block counted; the gauge holds signed numbers. -/
def countSubsidy (m : Metrics) (amount : UInt64) : Metrics :=
  { m with mintedTokens := min amount.toNat Int64.maxValue.toNatClampNeg }

/-- A scheduled mint counted that was carried out. -/
def countApplied (m : Metrics) : Metrics :=
  { m with externalMints := m.externalMints + 1 }

/-- A scheduled mint counted that failed. -/
def countFailed (m : Metrics) : Metrics :=
  { m with externalMintFailures := m.externalMintFailures + 1 }

end Metrics

/-- How a block over a store ends: what it returns, the store and the cache that it leaves,
and what it counts. -/
structure BlockEnd (σ : Type) where
  result : Except (Stop MintError) BlockOutcome
  state : σ
  cache : MintCache
  counted : Metrics → Metrics

/-- Begins a block over a store. -/
def BlockStore.beginBlock {σ : Type} (st : BlockStore σ) (s : Settings) (ctx : BlockContext)
    (x : σ) (cache : MintCache) : BlockEnd σ :=
  match issueSubsidy s ctx st x with
  | (.error e, y) => ⟨.error e, y, cache, Metrics.countBegun⟩
  | (.ok i, y) =>
      let issued (m : Metrics) := m.countBegun.countSubsidy i.provision.amount
      match cache.lookup ctx.height with
      | none => ⟨.ok (i.outcome ctx.height .none), y, cache.finish ctx.height, issued⟩
      | some m =>
          match applyScheduled ctx i.params i.minted cache.addressPrefix m st y with
          | (.ok (record, transition), z) =>
              ⟨.ok (i.outcome ctx.height (.applied record transition)), z,
                cache.finish ctx.height, Metrics.countApplied ∘ issued⟩
          | (.error .crashed, z) => ⟨.error .crashed, z, cache, issued⟩
          | (.error (.failed e), z) =>
              if e.isFatal then
                ⟨.error (.failed e), z, cache, Metrics.countFailed ∘ issued⟩
              else
                ⟨.ok (i.outcome ctx.height (.skipped m.address e)), z,
                  cache.finish ctx.height, Metrics.countFailed ∘ issued⟩

/-- A chain as a node holds it: its ledger, the mints to come, and what was counted. -/
structure Chain where
  ledger : Ledger
  cache : MintCache
  metrics : Metrics
  deriving DecidableEq

namespace Chain

/-- A chain with nothing stored. -/
def new (addressPrefix : String) : Chain :=
  ⟨.empty, .new addressPrefix, .zero⟩

/-- Runs a computation on the ledger. -/
def run {ε α : Type} (c : Chain) (outages : Outages) (m : StoreM ε α) : Except (Stop ε) α × Chain :=
  let r := m.runOn outages c.ledger
  (r.1, { c with ledger := r.2 })

/-- Begins a block of the chain. -/
def beginBlock (c : Chain) (s : Settings) (outages : Outages) (ctx : BlockContext) :
    Except (Stop MintError) BlockOutcome × Chain :=
  let b := outages.store.beginBlock s ctx c.ledger c.cache
  (b.result, ⟨b.state, b.cache, b.counted c.metrics⟩)

end Chain

end Mintage
