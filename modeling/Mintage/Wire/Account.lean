import Mintage.Wire.Money

/-!
The wire forms of accounts and mint records. An account is a record with one field,
named for its kind.
-/

namespace Mintage

open Datum

/-- Bytes as a list of numbers. -/
def Bytes.toDatum (b : Bytes) : Datum :=
  list (b.map fun x => int x.toNat)

/-- Reads a list of numbers that fit in a byte. -/
def Bytes.ofDatum? (d : Datum) : Option Bytes :=
  d.asList? asUInt8?

namespace Address

/-- An address as its text next to the bytes of its data. -/
def toDatum (a : Address) : Datum :=
  object [("encoded", ofString a.encoded), ("bytes", a.bytes.toDatum)]

/-- Reads an address; its bytes are not held against its text. -/
def ofDatum? (d : Datum) : Option Address := do
  let s ← d.slots? true [["encoded"], ["bytes"]]
  return ⟨← s.required 0 asString?, ← s.required 1 Bytes.ofDatum?⟩

end Address

namespace BaseAccount

/-- What every account has; a key that is unknown is null. -/
def toDatum (b : BaseAccount) : Datum :=
  object [("address", b.address.toDatum), ("pub_key", ofOption Bytes.toDatum b.pubKey),
    ("account_number", ofUInt64 b.accountNumber), ("sequence", ofUInt64 b.sequence)]

/-- Reads what every account has. -/
def ofDatum? (d : Datum) : Option BaseAccount := do
  let s ← d.slots? true [["address"], ["pub_key"], ["account_number"], ["sequence"]]
  return ⟨← s.required 0 Address.ofDatum?, ← s.optional 1 Bytes.ofDatum?, ← s.required 2 asUInt64?,
    ← s.required 3 asUInt64?⟩

end BaseAccount

namespace Period

/-- A period: its length in seconds and what it releases. -/
def toDatum (p : Period) : Datum :=
  object [("length", ofInt64 p.length), ("amount", p.amount.toDatum)]

/-- Reads a period. -/
def ofDatum? (d : Datum) : Option Period := do
  let s ← d.slots? true [["length"], ["amount"]]
  return ⟨← s.required 0 asInt64?, ← s.required 1 Coins.ofDatum?⟩

end Period

namespace Account

/-- The fields of an account of its kind. -/
def body : Account → Datum
  | plain base => base.toDatum
  | delayed base locked endTime =>
      object [("base", base.toDatum), ("original_vesting", locked.toDatum),
        ("end_time", ofInt64 endTime)]
  | periodic base locked start endTime periods =>
      object [("base", base.toDatum), ("original_vesting", locked.toDatum),
        ("start_time", ofInt64 start),
        ("end_time", ofInt64 endTime), ("periods", list (periods.map Period.toDatum))]

/-- An account under the name of its kind. -/
def toDatum (a : Account) : Datum :=
  object [(a.tag, a.body)]

/-- Reads the fields of a plain account. -/
def plainOfDatum? (d : Datum) : Option Account := do
  return .plain (← BaseAccount.ofDatum? d)

/-- Reads the fields of an account whose coins are released at once. -/
def delayedOfDatum? (d : Datum) : Option Account := do
  let s ← d.slots? true [["base"], ["original_vesting"], ["end_time"]]
  return .delayed (← s.required 0 BaseAccount.ofDatum?) (← s.required 1 Coins.ofDatum?)
    (← s.required 2 asInt64?)

/-- Reads the fields of an account whose coins are released by periods. -/
def periodicOfDatum? (d : Datum) : Option Account := do
  let s ← d.slots? true [["base"], ["original_vesting"], ["start_time"], ["end_time"], ["periods"]]
  return .periodic (← s.required 0 BaseAccount.ofDatum?) (← s.required 1 Coins.ofDatum?)
    (← s.required 2 asInt64?) (← s.required 3 asInt64?) (← s.required 4 (asList? Period.ofDatum?))

/-- Reads an account; the one field is named for its kind. -/
def ofDatum? : Datum → Option Account
  | record [(some "Base", d)] => plainOfDatum? d
  | record [(some "DelayedVesting", d)] => delayedOfDatum? d
  | record [(some "PeriodicVesting", d)] => periodicOfDatum? d
  | _ => none

end Account

namespace MintRecord

/-- The record of a mint, its coins next to the subsidy of its block. -/
def toDatum (r : MintRecord) : Datum :=
  object [("block_height", ofUInt64 r.blockHeight), ("account", ofString r.account),
    ("amount", r.amount.toDatum), ("block_provision", r.blockProvision.toDatum)]

/-- Reads the record of a mint. -/
def ofDatum? (d : Datum) : Option MintRecord := do
  let s ← d.slots? true [["block_height"], ["account"], ["amount"], ["block_provision"]]
  return ⟨← s.required 0 asUInt64?, ← s.required 1 asString?, ← s.required 2 Coins.ofDatum?,
    ← s.required 3 Coins.ofDatum?⟩

end MintRecord

end Mintage
