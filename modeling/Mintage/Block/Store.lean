import Mintage.Error.Mint
import Mintage.Ledger.Bank

/-!
Stores, and the calls on them. A call either answers or fails, and a computation made of
calls stops at the first failure. Computations are written for stores of any kind; the
ledger is one of them, whose calls make their writes all at once or leave it as it was.
Besides its own reasons, a call on the ledger fails when it is out of order.

* `BlockStore`: a store, as the calls that can be made on it.
* `BlockM`: computations made of calls, for every store.
* `Outages.store`: the ledger as a store, of which some calls are out of order.
* `BlockM.runOn`: a computation on the ledger, and what was written before it stopped stays
  written.
* `Outages.serve_of_outage`: a call that is out of order leaves the ledger untouched.
-/

namespace Mintage

/-! ### Stores -/

/-- A call on a store with states of some kind: it answers or fails as the store likes, and
either way it leaves a state behind. -/
abbrev Call (σ α : Type) := StateM σ (Except StateError α)

/-- A store as the mint module sees it. -/
structure BlockStore (σ : Type) where
  getMinter : Call σ (Option Minter)
  setMinter : Minter → Call σ Unit
  getParams : Call σ (Option Params)
  setParams : Params → Call σ Unit
  getAccount : Address → Call σ (Option Account)
  setAccount : Account → Call σ Unit
  /-- Reserves the next account number. -/
  nextAccountNumber : Call σ UInt64
  getBalances : Address → Call σ Coins
  mintCoins : String → Coins → Call σ Unit
  /-- Moves coins from one module to another. -/
  sendToModule : String → String → Coins → Call σ Unit
  /-- Moves coins from a module to an account. -/
  sendToAccount : String → Address → Coins → Call σ Unit
  getMintRecord : UInt64 → Call σ (Option MintRecord)
  setMintRecord : MintRecord → Call σ Unit
  allMintRecords : Call σ (List MintRecord)
  /-- Stores an account, its credit, the supply and a record in one go. -/
  commitMint : Account → Coins → MintRecord → Call σ Unit
  /-- The height and the time of the last finished block. -/
  getLastBlock : Call σ (Option (UInt64 × Int64))
  setLastBlock : UInt64 → Int64 → Call σ Unit

/-- A computation that makes calls on a store, and that can stop. -/
abbrev BlockM (σ ε : Type) := ReaderT (BlockStore σ) (ExceptT (Stop ε) (StateM σ))

namespace StoreM

variable {σ ε α : Type}

/-- Stops with an error. -/
def fail (e : ε) : BlockM σ ε α :=
  throw (.failed e)

/-- Stops because a number left its range. -/
def crash : BlockM σ ε α :=
  throw .crashed

/-- One call on the store, with its error put into the caller's terms. -/
def ask (wrap : StateError → ε) (call : BlockStore σ → Call σ α) : BlockM σ ε α :=
  fun st x =>
    match call st x with
    | (.ok a, y) => (.ok a, y)
    | (.error e, y) => (.error (.failed (wrap e)), y)

/-! ### The calls -/

variable (wrap : StateError → ε)

/-- Reads the minter. -/
def getMinter : BlockM σ ε (Option Minter) :=
  ask wrap (·.getMinter)

/-- Stores the minter. -/
def setMinter (m : Minter) : BlockM σ ε Unit :=
  ask wrap (·.setMinter m)

/-- Reads the parameters, whatever they are. -/
def getParams : BlockM σ ε (Option Params) :=
  ask wrap (·.getParams)

/-- Stores the parameters, whatever they are. -/
def setParams (p : Params) : BlockM σ ε Unit :=
  ask wrap (·.setParams p)

/-- Reads the account of an address. -/
def getAccount (a : Address) : BlockM σ ε (Option Account) :=
  ask wrap (·.getAccount a)

/-- Stores an account under its own address. -/
def setAccount (a : Account) : BlockM σ ε Unit :=
  ask wrap (·.setAccount a)

/-- Reserves the next account number. -/
def nextAccountNumber : BlockM σ ε UInt64 :=
  ask wrap (·.nextAccountNumber)

/-- Reads what an address holds. -/
def getBalances (a : Address) : BlockM σ ε Coins :=
  ask wrap (·.getBalances a)

/-- Makes coins in a module's balance. -/
def mintCoins (name : String) (coins : Coins) : BlockM σ ε Unit :=
  ask wrap (·.mintCoins name coins)

/-- Moves coins from one module to another. -/
def sendToModule (sender recipient : String) (coins : Coins) : BlockM σ ε Unit :=
  ask wrap (·.sendToModule sender recipient coins)

/-- Moves coins from a module to an account. -/
def sendToAccount (sender : String) (recipient : Address) (coins : Coins) : BlockM σ ε Unit :=
  ask wrap (·.sendToAccount sender recipient coins)

/-- Reads the record of a height. -/
def getMintRecord (height : UInt64) : BlockM σ ε (Option MintRecord) :=
  ask wrap (·.getMintRecord height)

/-- Stores a record under its own height. -/
def setMintRecord (r : MintRecord) : BlockM σ ε Unit :=
  ask wrap (·.setMintRecord r)

/-- Reads all records, in the order of their heights. -/
def allMintRecords : BlockM σ ε (List MintRecord) :=
  ask wrap (·.allMintRecords)

/-- Stores an account, its credit, the supply and a record in one go. -/
def commitMint (account : Account) (coins : Coins) (record : MintRecord) : BlockM σ ε Unit :=
  ask wrap (·.commitMint account coins record)

/-- Reads the height and the time of the last finished block. -/
def getLastBlock : BlockM σ ε (Option (UInt64 × Int64)) :=
  ask wrap (·.getLastBlock)

/-- Notes a block as the last finished one. -/
def setLastBlock (height : UInt64) (secs : Int64) : BlockM σ ε Unit :=
  ask wrap (·.setLastBlock height secs)

end StoreM

/-! ### The ledger as a store -/

/-- The names of the calls. -/
inductive StoreCall where
  | getMinter
  | setMinter
  | getParams
  | setParams
  | getAccount
  | setAccount
  | nextAccountNumber
  | getBalances
  | mintCoins
  | sendToModule
  | sendToAccount
  | getMintRecord
  | setMintRecord
  | allMintRecords
  | commitMint
  | getLastBlock
  | setLastBlock
  deriving DecidableEq

/-- Which calls are out of order, and the words each of them then fails with. -/
abbrev Outages := StoreCall → Option String

namespace Outages

/-- No call is out of order. -/
def none : Outages := fun _ => Option.none

variable {α : Type} (outages : Outages) (c : StoreCall)

/-- A call on the ledger: an answer and writes, or an error. -/
def serve (op : Ledger → Except StateError (α × List Write)) : Call Ledger α :=
  fun L =>
    match outages c with
    | some words => (.error (.storage (.stated words)), L)
    | Option.none =>
        match op L with
        | .ok (a, ws) => (.ok a, L.apply ws)
        | .error e => (.error e, L)

theorem serve_of_outage {outages : Outages} {c : StoreCall} {words : String}
    (h : outages c = some words) (op : Ledger → Except StateError (α × List Write)) (L : Ledger) :
    outages.serve c op L = (.error (.storage (.stated words)), L) := by
  simp [serve, h]

/-- A call that only reads. -/
def reads (op : Ledger → Except StateError α) : Call Ledger α :=
  outages.serve c fun L => (op L).map fun a => (a, [])

/-- A call that only writes. -/
def writes (op : Ledger → Except StateError (List Write)) : Call Ledger Unit :=
  outages.serve c fun L => (op L).map fun ws => ((), ws)

/-- A call that stores one entry. -/
def puts (w : Write) : Call Ledger Unit :=
  outages.writes c fun _ => .ok [w]

/-- The ledger as a store, of which some calls are out of order. -/
def store : BlockStore Ledger where
  getMinter := outages.reads .getMinter Ledger.minter?
  setMinter m := outages.puts .setMinter (.put .minter m)
  getParams := outages.reads .getParams Ledger.params?
  setParams p := outages.puts .setParams (.put .params p)
  getAccount a := outages.reads .getAccount (Ledger.account? · a)
  setAccount a := outages.puts .setAccount (.put (.account a.address.encoded) a)
  nextAccountNumber :=
    outages.serve .nextAccountNumber fun L => .ok (L.accountCounter, L.reserveNumber)
  getBalances a := outages.reads .getBalances (Ledger.balance · a)
  mintCoins name coins := outages.writes .mintCoins (Ledger.mintWrites · name coins)
  sendToModule sender recipient coins :=
    outages.writes .sendToModule (Ledger.moduleTransferWrites · sender recipient coins)
  sendToAccount sender recipient coins :=
    outages.writes .sendToAccount (Ledger.accountTransferWrites · sender recipient coins)
  getMintRecord height := outages.reads .getMintRecord (Ledger.mintRecord? · height)
  setMintRecord r := outages.puts .setMintRecord (.put (.mintRecord r.blockHeight) r)
  allMintRecords := outages.reads .allMintRecords Ledger.mintRecords
  commitMint account coins record :=
    outages.writes .commitMint (Ledger.commitWrites · account coins record)
  getLastBlock := outages.reads .getLastBlock Ledger.lastBlock?
  setLastBlock height secs := outages.puts .setLastBlock (.put .lastBlock (height, secs))

end Outages

/-- A computation that makes its calls on the ledger. -/
abbrev StoreM (ε : Type) := BlockM Ledger ε

/-- Runs a computation on the ledger: its outcome, and the ledger it leaves. -/
def BlockM.runOn {ε α : Type} (m : StoreM ε α) (outages : Outages) (L : Ledger) :
    Except (Stop ε) α × Ledger :=
  m outages.store L

end Mintage
