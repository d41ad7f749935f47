import Mintage.Block.Begin
import Mintage.Schedule.Feed

/-!
Bringing the mints to come in line with the feed. A reply that yields no snapshot
changes nothing but the counters.
-/

namespace Mintage.Chain

/-- A refresh counted that was merged. -/
def countRefresh (c : Chain) : Chain :=
  { c with metrics := { c.metrics with refreshes := c.metrics.refreshes + 1 } }

/-- A refresh counted that failed. -/
def countRefreshFailure (c : Chain) : Chain :=
  { c with metrics := { c.metrics with refreshFailures := c.metrics.refreshFailures + 1 } }

/-- Takes in a snapshot, and notes how many of its entries were passed over and how many
mints there are. -/
def takeSnapshot (c : Chain) (s : Snapshot) : MergeCounts × Chain :=
  let (cache, counts) := c.cache.merge s
  (counts, { c with
    cache
    metrics := { c.metrics with
      entriesSkipped := c.metrics.entriesSkipped + counts.skipped
      cacheSize := cache.mints.size } })

/-- Does with one reply of the feed what its content asks for. -/
def refresh (c : Chain) (r : Net.Reply) : Except FeedError MergeCounts × Chain :=
  match readReply r with
  | .error e => (.error e, c.countRefresh.countRefreshFailure)
  | .ok s =>
      let (counts, c) := c.countRefresh.takeSnapshot s
      (.ok counts, c)

end Mintage.Chain
