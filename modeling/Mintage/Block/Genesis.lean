import Mintage.Block.Store

/-!
The first state of the mint module, and the checked reading and writing of its
parameters.

* `ensureGenesis`: a ledger without parameters gets its genesis; otherwise configured
  parameters replace stored ones that differ. The minter is written before the
  parameters, so stored parameters mean a finished genesis.
-/

namespace Mintage

/-- The first state of the mint module. -/
structure Genesis where
  minter : Minter
  params : Params
  deriving DecidableEq

/-- The first state of a chain that configures nothing. -/
def Genesis.default : Genesis := ⟨Minter.initial, Params.default⟩

/-- Refuses a state with unusable parameters or minter. -/
def Genesis.validate (g : Genesis) : Except ParameterFault Unit := do
  g.params.validate
  g.minter.validate

/-- What `ensureGenesis` found and did. -/
inductive GenesisStatus where
  /-- A new chain: its genesis was written. -/
  | initialized
  /-- Configured parameters replaced the stored ones. -/
  | paramsUpdated
  | existing
  deriving DecidableEq

/-- The finding by its name in reports. -/
def GenesisStatus.name : GenesisStatus → String
  | initialized => "Initialized"
  | paramsUpdated => "ParamsUpdated"
  | existing => "Existing"

/-- The mint module's computations. -/
abbrev MintM (σ : Type) := BlockM σ MintError

namespace MintM

variable {σ : Type}

/-- Goes on, or stops with a fault in the parameters. -/
def check (r : Except ParameterFault Unit) : MintM σ Unit :=
  match r with
  | .ok () => pure ()
  | .error f => StoreM.fail (.invalidParameter (.cause f))

/-- An entry that must have been stored. -/
def existing {α : Type} (kind : EntryKind) (m : MintM σ (Option α)) : MintM σ α := do
  match ← m with
  | some a => pure a
  | none => StoreM.fail (.store (.storage (.cause kind)))

/-- The stored parameters, whatever they are. -/
def storedParams : MintM σ Params :=
  existing .params (StoreM.getParams .store)

/-- The stored parameters, which must be usable. -/
def params : MintM σ Params := do
  let p ← storedParams
  check p.validate
  return p

/-- Stores usable parameters. -/
def setParams (p : Params) : MintM σ Unit := do
  check p.validate
  StoreM.setParams .store p

/-- The stored minter. -/
def minter : MintM σ Minter :=
  existing .minter (StoreM.getMinter .store)

/-- Stores a minter. -/
def setMinter (m : Minter) : MintM σ Unit :=
  StoreM.setMinter .store m

/-! ### Genesis -/

/-- Writes the first state: the minter, then the parameters. -/
def initGenesis (g : Genesis) : MintM σ Unit := do
  check g.validate
  StoreM.setMinter .store g.minter
  StoreM.setParams .store g.params

/-- The state as a genesis. -/
def exportGenesis : MintM σ Genesis := do
  let m ← minter
  let p ← storedParams
  return ⟨m, p⟩

/-- Writes the genesis of a new chain, or brings stored parameters in line with the
given ones. -/
def ensureGenesis (p : Params) : MintM σ GenesisStatus := do
  match ← StoreM.getParams .store with
  | none =>
      initGenesis ⟨Minter.initial, p⟩
      return .initialized
  | some stored =>
      if stored = p then return .existing
      else
        setParams p
        return .paramsUpdated

/-! ### Queries -/

/-- The halving interval that the minter works with. -/
def halvingInterval : MintM σ Dec := do
  return (← minter).subsidyHalvingInterval

/-- The record of a height. -/
def mintRecord? (height : UInt64) : MintM σ (Option MintRecord) :=
  StoreM.getMintRecord .store height

/-- All records. -/
def mintRecords : MintM σ (List MintRecord) :=
  StoreM.allMintRecords .store

end MintM

end Mintage
