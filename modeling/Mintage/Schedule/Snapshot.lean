import Mintage.Data.Datum
import Mintage.Text.Digits

/-!
The schedule of mints as the feed publishes it: for each pair of an address and a
height, a whole number of tokens. Only the current mints are used; the rest is carried
along.

* `splitMintKey?`: an address that is not empty, a slash, and a height.
-/

namespace Mintage

/-- One scheduled mint. The amount counts whole tokens. -/
structure Mint where
  address : String
  amount : Int64
  height : UInt64
  deriving DecidableEq

/-- One state of the feed. The mints are stored under texts that join an address and a
height. -/
structure Snapshot where
  timestamp : String
  previousTimestamp : String
  flags : Int64
  kind : String
  mints : OrderedMap String Int64
  previousMints : OrderedMap String Int64
  signature : String
  deriving DecidableEq

namespace Snapshot

/-- The snapshot of a feed that says nothing. -/
def empty : Snapshot := ⟨"", "", 0, "", OrderedMap.empty, OrderedMap.empty, ""⟩

instance : Inhabited Snapshot := ⟨empty⟩

end Snapshot

/-- Splits the text of an address, a slash and a height. -/
def splitMintKey? (key : String) : Option (String × UInt64) :=
  match Text.splitAt? '/' key.toList with
  | none => none
  | some (address, height) =>
      if address.isEmpty then none
      else (Text.readUInt64? height).map fun h => (String.ofList address, h)

end Mintage
