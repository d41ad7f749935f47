import Mintage.Account.Address

/-!
Accounts: plain ones, those whose coins are locked until one point in time, and those
whose coins are released in a series of tranches.
-/

namespace Mintage

/-- What every account has. -/
structure BaseAccount where
  address : Address
  /-- The encoded public key, absent until the account first signs. -/
  pubKey : Option Bytes
  accountNumber : UInt64
  sequence : UInt64
  deriving DecidableEq

/-- A new account: it has not signed anything. -/
def BaseAccount.new (address : Address) (number : UInt64) : BaseAccount :=
  ⟨address, none, number, 0⟩

/-- One tranche: an amount, and the seconds it comes after the tranche before. -/
structure Period where
  length : Int64
  amount : Coins
  deriving DecidableEq

/-- An account of any kind. Times are in seconds since 1970. -/
inductive Account where
  | plain (base : BaseAccount)
  /-- All is locked until `endTime`. -/
  | delayed (base : BaseAccount) (locked : Coins) (endTime : Int64)
  /-- One tranche after the other is released from `startTime` on. -/
  | periodic (base : BaseAccount) (locked : Coins) (startTime endTime : Int64)
      (periods : List Period)
  deriving DecidableEq

namespace Account

/-- What every account has. -/
def base : Account → BaseAccount
  | plain b => b
  | delayed b .. => b
  | periodic b .. => b

/-- The address that an account belongs to. -/
def address (a : Account) : Address :=
  a.base.address

/-- The coins that were locked when the account began to vest. -/
def locked? : Account → Option Coins
  | plain _ => none
  | delayed _ c _ => some c
  | periodic _ c .. => some c

/-- The kind of an account, as reports name it. -/
def kind : Account → String
  | plain _ => "base"
  | delayed .. => "delayed_vesting"
  | periodic .. => "periodic_vesting"

/-- The kind of an account, as its wire form names it. -/
def tag : Account → String
  | plain _ => "Base"
  | delayed .. => "DelayedVesting"
  | periodic .. => "PeriodicVesting"

end Account

/-- The record of a scheduled mint that was carried out. -/
structure MintRecord where
  blockHeight : UInt64
  /-- The recipient's address as the schedule gave it. -/
  account : String
  /-- What the recipient got. -/
  amount : Coins
  /-- The subsidy minted in the same block. -/
  blockProvision : Coins
  deriving DecidableEq

end Mintage
