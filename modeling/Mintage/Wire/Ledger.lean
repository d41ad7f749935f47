import Mintage.Data.Datum
import Mintage.Ledger.Basic

/-!
The wire form of a whole ledger: each key with its bytes in hexadecimal, in the order of
the keys.
-/

namespace Mintage.Ledger

open Datum

/-- The entries of a ledger as pairs of texts. -/
def toDatum (L : Ledger) : Datum :=
  list (L.entries.toList.map fun e => list [ofString e.1, ofString (Bytes.hex e.2)])

/-- Reads a key and its bytes. -/
def entryOfDatum? : Datum → Option (String × Bytes)
  | list [key, bytes] =>
      do return (← key.asString?, ← bytes.asString?.bind fun s => Bytes.ofHex? s.toList)
  | _ => none

/-- Reads a ledger; the last pair for a key counts. -/
def ofDatum? (d : Datum) : Option Ledger := do
  return ⟨OrderedMap.ofList (← d.asList? entryOfDatum?)⟩

end Mintage.Ledger
