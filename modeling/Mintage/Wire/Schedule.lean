import Mintage.Data.Datum
import Mintage.Schedule.Cache

/-!
The wire forms of scheduled mints and of the feed's snapshots. Every field of a snapshot
has a default, and its time may be written under either of two names.
-/

namespace Mintage

open Datum

namespace Mint

/-- A scheduled mint. -/
def toDatum (m : Mint) : Datum :=
  object [("address", ofString m.address), ("amount", ofInt64 m.amount),
    ("height", ofUInt64 m.height)]

/-- Reads a scheduled mint; its amount may be negative. -/
def ofDatum? (d : Datum) : Option Mint := do
  let s ← d.slots? true [["address"], ["amount"], ["height"]]
  return ⟨← s.required 0 asString?, ← s.required 1 asInt64?, ← s.required 2 asUInt64?⟩

end Mint

namespace Snapshot

/-- Scheduled mints, as a record around the map of them. -/
def mintsToDatum (m : OrderedMap String Int64) : Datum :=
  object [("mints", ofMap ofInt64 m)]

/-- Reads scheduled mints; without the map there are none. -/
def mintsOfDatum? (d : Datum) : Option (OrderedMap String Int64) := do
  let s ← d.slots? true [["mints"]]
  s.withDefault 0 (asMap? asInt64?) OrderedMap.empty

/-- A snapshot under the names that the feed gives to its fields. -/
def toDatum (s : Snapshot) : Datum :=
  object [("timestamp", ofString s.timestamp), ("previousTimeStamp", ofString s.previousTimestamp),
    ("flags", ofInt64 s.flags), ("type", ofString s.kind), ("data", mintsToDatum s.mints),
    ("previousData", mintsToDatum s.previousMints), ("signature", ofString s.signature)]

/-- The names of the fields, in order. The time goes by two of them. -/
def fieldNames : List (List String) :=
  [["timestamp", "timeStamp"], ["previousTimeStamp"], ["flags"], ["type"], ["data"],
    ["previousData"], ["signature"]]

/-- Reads a snapshot; what is missing is empty. -/
def ofDatum? (d : Datum) : Option Snapshot := do
  let s ← d.slots? true fieldNames
  return ⟨← s.withDefault 0 asString? "", ← s.withDefault 1 asString? "",
    ← s.withDefault 2 asInt64? 0,
    ← s.withDefault 3 asString? "", ← s.withDefault 4 mintsOfDatum? OrderedMap.empty,
    ← s.withDefault 5 mintsOfDatum? OrderedMap.empty, ← s.withDefault 6 asString? ""⟩

end Snapshot

end Mintage
