import Mintage.Proofs.Block.Begin
import Mintage.Proofs.Block.Genesis
import Mintage.Proofs.Data.History
import Mintage.Proofs.Ledger.Sound

/-!
Coins are conserved: whatever is done to a ledger, the supply counts just what modules
and accounts hold.

* `Ledger.step_within`: a relation between ledgers that every single write respects holds
  across every operation and every block.
* `Ledger.step_conserves`: every operation and every block puts new coins into the
  supply and into someone's balance.
* `Ledger.reached_sound`: every ledger that operations and blocks lead to from the empty
  one is sound.
* `Ledger.supply_eq_holdings`: in such a ledger the supply reads as the sum of all
  balances.
-/

namespace Mintage

open StoreM

namespace Ledger

instance : Chains Conserves := ⟨Conserves.refl, Conserves.trans⟩

lemma block_conserves : BlockRespects Conserves where
  minter L m := ⟨_, (store_minter_quiet L m).makes⟩
  mint h := ⟨_, mintWrites_makes h⟩
  transfer h := ⟨_, moduleTransferWrites_makes h⟩
  number L := ⟨_, (reserveNumber_quiet L).makes⟩
  commit h := ⟨_, commitWrites_makes h⟩

lemma store_params_conserves (L : Ledger) (p : Params) : L.Conserves (L.store (.put .params p)) :=
  ⟨_, (store_params_quiet L p).makes⟩

end Ledger

/-- What can be done to a ledger: the operations of the store, the writing of a genesis,
and beginning a block with any cache. -/
inductive LedgerStep where
  | mintCoins (name : String) (coins : Coins)
  | sendToModule (sender recipient : String) (coins : Coins)
  | sendToAccount (sender : String) (recipient : Address) (coins : Coins)
  | commitMint (account : Account) (coins : Coins) (record : MintRecord)
  | setAccount (a : Account)
  | setMintRecord (r : MintRecord)
  | setParams (p : Params)
  | setMinter (m : Minter)
  | setLastBlock (height : UInt64) (secs : Int64)
  | nextAccountNumber
  | initGenesis (g : Genesis)
  | ensureGenesis (p : Params)
  | beginBlock (s : Settings) (ctx : BlockContext) (cache : MintCache)

namespace Ledger

/-- The ledger after an operation, with the calls that are out of order meanwhile; a
call that fails leaves it as it was. -/
def step (L : Ledger) : LedgerStep × Outages → Ledger
  | (.mintCoins name coins, o) => ((StoreM.mintCoins id name coins).runOn o L).2
  | (.sendToModule sender recipient coins, o) =>
      ((StoreM.sendToModule id sender recipient coins).runOn o L).2
  | (.sendToAccount sender recipient coins, o) =>
      ((StoreM.sendToAccount id sender recipient coins).runOn o L).2
  | (.commitMint account coins record, o) =>
      ((StoreM.commitMint id account coins record).runOn o L).2
  | (.setAccount a, o) => ((StoreM.setAccount id a).runOn o L).2
  | (.setMintRecord r, o) => ((StoreM.setMintRecord id r).runOn o L).2
  | (.setParams p, o) => ((StoreM.setParams id p).runOn o L).2
  | (.setMinter m, o) => ((StoreM.setMinter id m).runOn o L).2
  | (.setLastBlock height secs, o) => ((StoreM.setLastBlock id height secs).runOn o L).2
  | (.nextAccountNumber, o) => ((StoreM.nextAccountNumber id).runOn o L).2
  | (.initGenesis g, o) => ((MintM.initGenesis g).runOn o L).2
  | (.ensureGenesis p, o) => ((MintM.ensureGenesis p).runOn o L).2
  | (.beginBlock s ctx cache, o) => (Chain.beginBlock ⟨L, cache, .zero⟩ s o ctx).2.ledger

/-- Every write that an operation can make respects a relation between ledgers. -/
structure StepRespects (R : Ledger → Ledger → Prop) : Prop extends BlockRespects R where
  params : ∀ (L : Ledger) (p : Params), R L (L.store (.put .params p))
  lastBlock : ∀ (L : Ledger) (b : UInt64 × Int64), R L (L.store (.put .lastBlock b))
  account : ∀ (L : Ledger) (a : Account), R L (L.store (.put (.account a.address.encoded) a))
  record : ∀ (L : Ledger) (r : MintRecord), R L (L.store (.put (.mintRecord r.blockHeight) r))
  payment : ∀ {L sender recipient coins ws},
    Ledger.accountTransferWrites L sender recipient coins = .ok ws → R L (L.apply ws)

/-- **A relation that every write of an operation respects** holds between the ledgers
before and after it, whether it succeeds or not. -/
theorem step_within {R : Ledger → Ledger → Prop} [Chains R] (hR : StepRespects R) (L : Ledger)
    (e : LedgerStep × Outages) : R L (L.step e) := by
  obtain ⟨e, o⟩ := e
  -- a call that stores one entry
  have hput {c : StoreCall} {w : Write} {call : BlockStore Ledger → Call Ledger Unit}
      (hcall : ∀ o : Outages, call o.store = o.puts c w) (hw : ∀ M : Ledger, R M (M.store w)) :
      Within R (ask (id : StateError → StateError) call) := .put hcall hw
  cases e with
  | mintCoins name coins =>
      have h : Within R (StoreM.mintCoins id name coins) := .update (fun _ => rfl) hR.mint
      exact h o L
  | sendToModule sender recipient coins =>
      have h : Within R (StoreM.sendToModule id sender recipient coins) :=
        .update (fun _ => rfl) hR.transfer
      exact h o L
  | sendToAccount sender recipient coins =>
      have h : Within R (StoreM.sendToAccount id sender recipient coins) :=
        .update (fun _ => rfl) hR.payment
      exact h o L
  | commitMint account coins record =>
      have h : Within R (StoreM.commitMint id account coins record) :=
        .update (fun _ => rfl) hR.commit
      exact h o L
  | setAccount a => exact hput (fun _ => rfl) (hR.account · a) o L
  | setMintRecord r => exact hput (fun _ => rfl) (hR.record · r) o L
  | setParams p => exact hput (fun _ => rfl) (hR.params · p) o L
  | setMinter m => exact hput (fun _ => rfl) (hR.minter · m) o L
  | setLastBlock height secs => exact hput (fun _ => rfl) (hR.lastBlock · (height, secs)) o L
  | nextAccountNumber =>
      have h : Within R (StoreM.nextAccountNumber id) :=
        .call Outages.store_nextAccountNumber fun h => by
        cases h
        exact hR.number _
      exact h o L
  | initGenesis g => exact MintM.initGenesis_within hR.minter hR.params g o L
  | ensureGenesis p => exact MintM.ensureGenesis_within hR.minter hR.params p o L
  | beginBlock s ctx cache =>
      exact Chain.beginBlock_within hR.toBlockRespects ⟨L, cache, .zero⟩ s o ctx

lemma conserves_respected : StepRespects Conserves where
  toBlockRespects := block_conserves
  params := store_params_conserves
  lastBlock L b := store_conserves L (w := .put .lastBlock b) ⟨b, rfl⟩ nofun
  account L a := store_conserves L (w := .put (.account a.address.encoded) a) ⟨a, rfl⟩ nofun
  record L r := store_conserves L (w := .put (.mintRecord r.blockHeight) r) ⟨r, rfl⟩ nofun
  payment h := ⟨_, accountTransferWrites_makes h⟩

/-- **Every operation** conserves coins, whether it succeeds or not. -/
theorem step_conserves (L : Ledger) (e : LedgerStep × Outages) : L.Conserves (L.step e) :=
  step_within conserves_respected L e

/-! ### Reachable ledgers -/

/-- The ledger that a run of operations leads to from the empty one. -/
def reached (run : List (LedgerStep × Outages)) : Ledger := runAll step empty run

/-- **Every reachable ledger is sound.** -/
theorem reached_sound (run : List (LedgerStep × Outages)) : (reached run).Sound :=
  run_invariant (I := Sound) (fun L e hL => (step_conserves L e).sound hL) sound_empty run

/-- **Coins are conserved.** Whatever operations and blocks lead to a ledger, and whichever
of them failed, its supply and all its balances read, and of every denomination the supply
counts what all modules and all accounts hold together. -/
theorem supply_eq_holdings (run : List (LedgerStep × Outages)) :
    ∃ supply modules accounts, (reached run).supply = .ok supply ∧
      Balances (reached run).moduleBalance modules ∧
      Balances (fun text => (reached run).loadCoins (.balance text)) accounts ∧
      ∀ denom, (supply.amountOf denom).toNat = total modules denom + total accounts denom := by
  have hsound := reached_sound run
  obtain ⟨supply, hsupply⟩ := hsound.wellFormed.supply_ok
  obtain ⟨modules, hmodules, hmoduleTotal⟩ := hsound.wellFormed.moduleBalances
  obtain ⟨accounts, haccounts, haccountTotal⟩ := hsound.wellFormed.accountBalances
  refine ⟨supply, modules, accounts, hsupply, hmodules, haccounts, ?_⟩
  intro denom
  calc (supply.amountOf denom).toNat
      = (reached run).supplyTotal denom := (supplyTotal_of_supply hsupply denom).symm
    _ = (reached run).holdings denom := hsound.balanced denom
    _ = total modules denom + total accounts denom := by
        rw [holdings, hmoduleTotal, haccountTotal]

end Ledger

end Mintage
