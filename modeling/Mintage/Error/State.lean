import Mintage.Account.Basic
import Mintage.Error.Value

/-!
What can go wrong with the ledger, and how a computation stops.
-/

namespace Mintage

/-- The kinds of entry that the ledger stores, as messages name them. -/
inductive EntryKind where
  | minter
  | params
  | lastBlock
  | account
  | balance
  | moduleBalance
  | supply
  | mintRecord
  | accountCounter
  deriving DecidableEq

/-- The entry as errors name it. -/
def EntryKind.name : EntryKind → String
  | .minter => "minter"
  | .params => "params"
  | .lastBlock => "last block"
  | .account => "account"
  | .balance => "balance"
  | .moduleBalance => "module balance"
  | .supply => "supply"
  | .mintRecord => "mint record"
  | .accountCounter => "account number"

/-- Why stored bytes are of no use. -/
inductive EntryFault where
  | unreadable (kind : EntryKind)
  /-- The last block's time lies outside the calendar. -/
  | badBlockTime (secs : Int64)
  deriving DecidableEq

/-- The fault in words. -/
def EntryFault.message : EntryFault → String
  | .unreadable k => "Failed to deserialize " ++ k.name
  | .badBlockTime t => "invalid last block time " ++ toString t.toInt

/-- What is wrong with an address or with its account. -/
inductive AddressFault where
  | refused (text : String) (reason : AddressReason)
  /-- The account stored for an address is that of another one. -/
  | notOwner (account address : Address)
  deriving DecidableEq

/-- The fault in words, with the address. -/
def AddressFault.message : AddressFault → String
  | .refused t r => t ++ ": " ++ r.message
  | .notOwner a b => "account " ++ a.encoded ++ " does not belong to " ++ b.encoded

/-- Why an operation on the ledger is refused. -/
inductive StateError where
  /-- The store fails, or lacks the entry of the given kind. -/
  | storage (detail : Detail EntryKind)
  | serialization (detail : Detail EntryFault)
  | invalidAddress (detail : Detail AddressFault)
  | insufficientFunds (holder : String) (requested available : Coins)
  | accountNotFound (words : String)
  | overflow (detail : Detail ValueError)
  deriving DecidableEq

/-- The error in words. -/
def StateError.message : StateError → String
  | .storage d => "Storage error: " ++ d.message fun k => k.name ++ " not initialized"
  | .serialization d => "Serialization error: " ++ d.message EntryFault.message
  | .invalidAddress d => "Invalid address: " ++ d.message AddressFault.message
  | .insufficientFunds h r a =>
      "Insufficient funds in " ++ h ++ ": requested " ++ r.text ++ ", available " ++ a.text
  | .accountNotFound w => "Account not found: " ++ w
  | .overflow d => "Arithmetic overflow: " ++ d.message ValueError.message

/-- Reads an address, or says what is wrong with it. -/
def Address.read (text addressPrefix : String) : Except StateError Address :=
  match Address.parse text addressPrefix with
  | .ok a => .ok a
  | .error r => .error (.invalidAddress (.cause (.refused text r)))

/-- How a computation stops before its end: with an error, or because a number left its
range and the process stopped with it. -/
inductive Stop (ε : Type) where
  | failed (e : ε)
  | crashed
  deriving DecidableEq

end Mintage
