import Mintage.Error.State
import Mintage.Ledger.Packing

/-!
The ledger: packed entries under text keys, in the order of the keys. An operation reads
what it needs, and either fails or yields the writes that carry it out, which are made
all at once.

* `Key.text`: entries of one kind share the beginning of their keys, and records are
  padded so that the order of their keys is that of their heights.
* `Ledger.load?`: what is stored under a key, or an error where its bytes do not read.
-/

namespace Mintage

/-- What an entry of the ledger is about. -/
inductive Key where
  | minter
  | params
  | supply
  | accountCounter
  | lastBlock
  | account (address : String)
  | balance (address : String)
  | moduleBalance (name : String)
  | mintRecord (height : UInt64)
  deriving DecidableEq

namespace Key

/-- How the keys of all records begin. -/
def recordStart : String := "mint_record:"

/-- The text that an entry is stored under. -/
def text : Key → String
  | minter => "minter"
  | params => "params"
  | supply => "supply"
  | accountCounter => "next_account_number"
  | lastBlock => "last_block"
  | account a => "account:" ++ a
  | balance a => "balance:" ++ a
  | moduleBalance m => "module:" ++ m
  | mintRecord h => recordStart ++ String.ofList (Text.paddedDigits 20 h.toNat)

/-- What kind of entry a key stands for. -/
def kind : Key → EntryKind
  | minter => .minter
  | params => .params
  | supply => .supply
  | accountCounter => .accountCounter
  | lastBlock => .lastBlock
  | account _ => .account
  | balance _ => .balance
  | moduleBalance _ => .moduleBalance
  | mintRecord _ => .mintRecord

end Key

/-- An entry to be stored. -/
structure Write where
  key : Key
  value : Bytes
  deriving DecidableEq

/-- The entry that stores a value. -/
def Write.put {α : Type} [Packed α] (key : Key) (a : α) : Write :=
  ⟨key, Packed.pack a⟩

/-- Packed entries under text keys. -/
structure Ledger where
  entries : OrderedMap String Bytes
  deriving DecidableEq

namespace Ledger

/-- The ledger of a new chain: nothing is stored. -/
def empty : Ledger := ⟨OrderedMap.empty⟩

instance : Inhabited Ledger := ⟨empty⟩

/-- The bytes stored under a key. -/
def bytes? (L : Ledger) (key : Key) : Option Bytes :=
  L.entries.get? key.text

/-- The ledger with one entry stored. -/
def store (L : Ledger) (w : Write) : Ledger :=
  ⟨L.entries.insert w.key.text w.value⟩

/-- The ledger with all of the entries stored, one after the other. -/
def apply (L : Ledger) (ws : List Write) : Ledger :=
  ws.foldl store L

/-- The value stored under a key. -/
def load? (α : Type) [Packed α] (L : Ledger) (key : Key) : Except StateError (Option α) :=
  match L.bytes? key with
  | none => .ok none
  | some b =>
      match (Packed.unpack? b : Option (α × Bytes)) with
      | some (a, _) => .ok (some a)
      | none => .error (.serialization (.cause (.unreadable key.kind)))

/-- The coins stored under a key; no entry means no coins. -/
def loadCoins (L : Ledger) (key : Key) : Except StateError Coins := do
  return (← L.load? Coins key).getD .zero

/-! ### Entries by kind -/

/-- The stored minter. -/
def minter? (L : Ledger) : Except StateError (Option Minter) :=
  L.load? Minter .minter

/-- The stored parameters, whatever they are. -/
def params? (L : Ledger) : Except StateError (Option Params) :=
  L.load? Params .params

/-- The height and time of the last finished block. -/
def lastBlock? (L : Ledger) : Except StateError (Option (UInt64 × Int64)) :=
  L.load? (UInt64 × Int64) .lastBlock

/-- The account stored for an address. -/
def account? (L : Ledger) (a : Address) : Except StateError (Option Account) :=
  L.load? Account (.account a.encoded)

/-- What an address holds; nothing stored is nothing held. -/
def balance (L : Ledger) (a : Address) : Except StateError Coins :=
  L.loadCoins (.balance a.encoded)

/-- What a module holds. -/
def moduleBalance (L : Ledger) (name : String) : Except StateError Coins :=
  L.loadCoins (.moduleBalance name)

/-- All coins in circulation. -/
def supply (L : Ledger) : Except StateError Coins :=
  L.loadCoins .supply

/-- The record of the mint that was carried out at a height. -/
def mintRecord? (L : Ledger) (height : UInt64) : Except StateError (Option MintRecord) :=
  L.load? MintRecord (.mintRecord height)

/-- Reads the values of entries in order. -/
def readRecords : List (String × Bytes) → Except StateError (List MintRecord)
  | [] => .ok []
  | (_, b) :: r =>
      match (Packed.unpack? b : Option (MintRecord × Bytes)) with
      | some (m, _) => (readRecords r).map (m :: ·)
      | none => .error (.serialization (.cause (.unreadable .mintRecord)))

/-- All records, in the order of their keys. -/
def mintRecords (L : Ledger) : Except StateError (List MintRecord) :=
  readRecords (L.entries.filter fun k _ => decide (Key.recordStart.toList <+: k.toList)).toList

/-- The number that a counter's bytes stand for; bytes of any other length count as zero. -/
def counterOf (b : Option Bytes) : UInt64 :=
  match b with
  | some b => if b.length = 8 then UInt64.ofNat (Bytes.toNatBE b) else 0
  | none => 0

/-- The account number that comes next. -/
def accountCounter (L : Ledger) : UInt64 :=
  counterOf (L.bytes? .accountCounter)

/-- The write that reserves the next account number. -/
def reserveNumber (L : Ledger) : List Write :=
  [⟨.accountCounter, Bytes.ofNatBE 8 (Word.next L.accountCounter).toNat⟩]

end Ledger

end Mintage
