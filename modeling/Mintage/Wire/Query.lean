import Mintage.Wire.Account

/-!
What a node answers to queries about itself, and the wire forms of the answers.
-/

namespace Mintage

open Datum

/-- Where a chain stands. -/
structure NodeStatus where
  height : Option UInt64
  blockTime : Option Int64
  totalSupply : Coins
  /-- The heights of the mints to come. -/
  pendingMints : List UInt64
  deriving DecidableEq

namespace NodeStatus

/-- Where a chain stands; before its first block it has no height and no time. -/
def toDatum (s : NodeStatus) : Datum :=
  object [("height", ofOption ofUInt64 s.height), ("block_time", ofOption ofInt64 s.blockTime),
    ("total_supply", s.totalSupply.toDatum), ("pending_mints", list (s.pendingMints.map ofUInt64))]

/-- Reads where a chain stands. -/
def ofDatum? (d : Datum) : Option NodeStatus := do
  let s ← d.slots? true [["height"], ["block_time"], ["total_supply"], ["pending_mints"]]
  return ⟨← s.optional 0 asUInt64?, ← s.optional 1 asInt64?, ← s.required 2 Coins.ofDatum?,
    ← s.required 3 (asList? asUInt64?)⟩

end NodeStatus

/-- A halving interval in a record of its own. -/
def intervalToDatum (interval : Dec) : Datum :=
  object [("subsidy_halving_interval", interval.toDatum)]

/-- Reads a halving interval from a record of its own. -/
def intervalOfDatum? (d : Datum) : Option Dec := do
  let s ← d.slots? true [["subsidy_halving_interval"]]
  s.required 0 Dec.ofDatum?

/-- An error as a node reports it: a word for its kind and a message. -/
def errorToDatum (kind message : String) : Datum :=
  object [("error", ofString kind), ("message", ofString message)]

/-- The message of an error report; the last field of the name counts. -/
def errorMessage? : Datum → Option String
  | record fields =>
      ((fields.reverse.find? fun f => f.1 == some "message").map (·.2)).bind asString?
  | _ => none

end Mintage
