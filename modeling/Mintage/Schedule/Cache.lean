import Mintage.Schedule.Snapshot

/-!
The mints that are still to be carried out, by height. Heights below the floor are
finished: they are not served, not taken in, and dropped when the cache is next cleaned.

* `MintCache.merge`: each entry of a snapshot is judged on its own, malformed before
  foreign before stale; the ones taken in are stored in the order of their keys, so the
  last one for a height stays.
* `MintCache.screen` and `MintCache.takeIn`: the two steps of a merge, with the floor
  read in the first.
-/

namespace Mintage

/-- What became of the entries of one snapshot, and how many old mints were dropped. -/
structure MergeCounts where
  inserted : Nat
  malformed : Nat
  foreign : Nat
  stale : Nat
  pruned : Nat
  deriving DecidableEq

/-- The entries that were not taken in. -/
def MergeCounts.skipped (c : MergeCounts) : Nat :=
  c.malformed + c.foreign + c.stale

/-- The judgement on one entry of a snapshot. -/
inductive Verdict where
  | malformed
  | foreign
  | stale
  | accepted (m : Mint)
  deriving DecidableEq

/-- The mints still to be carried out. -/
structure MintCache where
  mints : OrderedMap UInt64 Mint
  /-- The lowest height that may still be served. -/
  floor : UInt64
  /-- Mints for addresses that begin otherwise are not taken in. -/
  addressPrefix : String
  deriving DecidableEq

namespace MintCache

/-- Nothing is scheduled, and no height is finished. -/
def new (addressPrefix : String) : MintCache :=
  ⟨OrderedMap.empty, 0, addressPrefix⟩

/-- The mint to carry out at a height. -/
def lookup (c : MintCache) (height : UInt64) : Option Mint :=
  if height < c.floor then none else c.mints.get? height

/-- Notes that a height is finished. The floor only rises. -/
def markProcessed (c : MintCache) (height : UInt64) : MintCache :=
  { c with floor := max c.floor (Word.next height) }

/-- The last finished height. -/
def processedHeight? (c : MintCache) : Option UInt64 :=
  if c.floor = 0 then none else some (c.floor - 1)

/-- The mints at a height and above. -/
def keepFrom (floor : UInt64) (mints : OrderedMap UInt64 Mint) : OrderedMap UInt64 Mint :=
  mints.filter fun h _ => decide (floor ≤ h)

/-- Drops the mints below the floor. -/
def prune (c : MintCache) : MintCache :=
  { c with mints := keepFrom c.floor c.mints }

/-- Notes that a height is finished, and drops what can no longer be served. -/
def finish (c : MintCache) (height : UInt64) : MintCache :=
  (c.markProcessed height).prune

/-- How many mints lie below the floor. -/
def pruneCount (c : MintCache) : Nat :=
  c.mints.size - (keepFrom c.floor c.mints).size

/-- The heights of all mints, in ascending order. -/
def heights (c : MintCache) : List UInt64 :=
  c.mints.keys

/-! ### Merging a snapshot -/

/-- Judges one entry against a floor and an address prefix. -/
def judge (floor : UInt64) (addressPrefix : String) (entry : String × Int64) : Verdict :=
  match splitMintKey? entry.1 with
  | none => .malformed
  | some (address, height) =>
      if entry.2 ≤ 0 then .malformed
      else if ¬ addressPrefix.toList <+: address.toList then .foreign
      else if height < floor then .stale
      else .accepted ⟨address, entry.2, height⟩

/-- The judgements on all entries of a snapshot, in the order of their keys. -/
def screen (floor : UInt64) (addressPrefix : String) (s : Snapshot) : List Verdict :=
  s.mints.toList.map (judge floor addressPrefix)

/-- The mint of a judgement that accepts one. -/
def accepted? : Verdict → Option Mint
  | .accepted m => some m
  | _ => none

/-- Drops the mints below a floor and stores the accepted ones. -/
def takeIn (floor : UInt64) (verdicts : List Verdict) (c : MintCache) : MintCache :=
  { c with
    mints :=
      (verdicts.filterMap accepted?).foldl (fun ms m => ms.insert m.height m)
        (keepFrom floor c.mints) }

/-- What a merge reports. -/
def mergeCounts (floor : UInt64) (verdicts : List Verdict) (c : MintCache) : MergeCounts where
  inserted := (verdicts.filterMap accepted?).length
  malformed := verdicts.count .malformed
  foreign := verdicts.count .foreign
  stale := verdicts.count .stale
  pruned := c.mints.size - (keepFrom floor c.mints).size

/-- Takes in the acceptable mints of a snapshot. -/
def merge (c : MintCache) (s : Snapshot) : MintCache × MergeCounts :=
  let verdicts := screen c.floor c.addressPrefix s
  (takeIn c.floor verdicts c, mergeCounts c.floor verdicts c)

end MintCache

end Mintage
