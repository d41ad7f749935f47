import Mathlib.Algebra.Order.Ring.Nat
import Mathlib.Tactic.Lemma
import Mintage.Node.Refresh
import Mintage.Proofs.Data.History

/-!
The mints to come through any sequence of replies of the feed, good and bad ones mixed.

* `Net.Reply.payload?`, `Faulty`: which replies carry a snapshot, and what is wrong with
  the others.
* `Chain.Refresh`, `Chain.refresh_spec`: one attempt either merges a whole snapshot or
  changes nothing but two counters.
* `Chain.refreshes_merge`: after a sequence of replies the cache is what the snapshots among
  them make of it, merged one after the other, and the counters add up.
-/

namespace Mintage

/-! ### Replies -/

/-- The statuses from 200 to 299. -/
def Net.Successful (status : ℕ) : Prop :=
  200 ≤ status ∧ status ≤ 299

lemma Net.isSuccess_iff {status : ℕ} : Net.isSuccess status ↔ Net.Successful status := by
  simp only [Net.isSuccess, Net.Successful, Bool.and_eq_true, decide_eq_true_eq]
  omega

instance (status : ℕ) : Decidable (Net.Successful status) :=
  inferInstanceAs (Decidable (_ ∧ _))

/-- The snapshot that a reply carries, in the whole body of a successful answer. -/
def Net.Reply.payload? : Net.Reply → Option Snapshot
  | .answer status body true => if Net.Successful status then Snapshot.read? body else none
  | .answer _ _ false => none
  | .unreachable => none

/-- What is wrong with a reply that carries no snapshot. The status is looked at before the
length, and the length before the content. -/
inductive Faulty : Net.Reply → FeedError → Prop where
  | unreachable : Faulty .unreachable .unanswered
  | status {status body complete} (hstatus : ¬ Net.Successful status) :
      Faulty (.answer status body complete) (.status status)
  | cutShort {status body} (hstatus : Net.Successful status) :
      Faulty (.answer status body false) .unanswered
  | unreadable {status body} (hstatus : Net.Successful status)
      (hbody : Snapshot.read? body = none) : Faulty (.answer status body true) .unreadable

/-- A reply that carries a snapshot has no fault. -/
lemma Faulty.payload?_eq_none {r : Net.Reply} {e : FeedError} (h : Faulty r e) :
    r.payload? = none := by
  cases h with
  | unreachable => rfl
  | @status status body complete hstatus =>
      cases complete
      · rfl
      · exact if_neg hstatus
  | cutShort => rfl
  | unreadable hstatus hbody => exact (if_pos hstatus).trans hbody

/-- **A reply is read** as the snapshot that it carries, or else as its fault. -/
theorem readReply_spec (r : Net.Reply) :
    (∃ s, r.payload? = some s ∧ readReply r = .ok s) ∨
      ∃ e, Faulty r e ∧ readReply r = .error e := by
  cases r with
  | unreachable => exact .inr ⟨_, .unreachable, rfl⟩
  | answer status body complete =>
      rw [readReply]
      by_cases hstatus : Net.Successful status
      · rw [if_neg (not_not.2 (Net.isSuccess_iff.2 hstatus))]
        cases complete with
        | false => exact .inr ⟨_, .cutShort hstatus, rfl⟩
        | true =>
            cases hbody : Snapshot.read? body with
            | some s => exact .inl ⟨s, (if_pos hstatus).trans hbody, rfl⟩
            | none => exact .inr ⟨_, .unreadable hstatus hbody, rfl⟩
      · rw [if_pos (mt Net.isSuccess_iff.1 hstatus)]
        exact .inr ⟨_, .status hstatus, rfl⟩

namespace Chain

variable {c d : Chain} {r : Net.Reply} {report : Except FeedError MergeCounts}

/-! ### One attempt -/

/-- What one reply can make of a chain. It is merged as a whole and counted, or it leaves
everything but the counts of attempts and of failures. -/
inductive Refresh (c : Chain) (r : Net.Reply) : Except FeedError MergeCounts → Chain → Prop where
  | merged {s} (hs : r.payload? = some s) :
      Refresh c r (.ok (c.cache.merge s).2)
        { c with
          cache := (c.cache.merge s).1
          metrics := { c.metrics with
            refreshes := c.metrics.refreshes + 1
            entriesSkipped := c.metrics.entriesSkipped + (c.cache.merge s).2.skipped
            cacheSize := (c.cache.merge s).1.mints.size } }
  | failed {e} (he : Faulty r e) :
      Refresh c r (.error e)
        { c with
          metrics := { c.metrics with
            refreshes := c.metrics.refreshes + 1
            refreshFailures := c.metrics.refreshFailures + 1 } }

/-- **One attempt** merges the snapshot of the reply, or fails with the reply's fault. -/
theorem refresh_spec (c : Chain) (r : Net.Reply) : Refresh c r (c.refresh r).1 (c.refresh r).2 := by
  rcases readReply_spec r with ⟨s, hs, hread⟩ | ⟨e, he, hread⟩
  · rw [refresh, hread]
    exact .merged hs
  · rw [refresh, hread]
    exact .failed he

namespace Refresh

/-- What an attempt makes of the cache. -/
lemma cache (h : Refresh c r report d) :
    d.cache = r.payload?.elim c.cache fun s => (c.cache.merge s).1 := by
  cases h with
  | merged hs => rw [hs, Option.elim_some]
  | failed he => rw [he.payload?_eq_none, Option.elim_none]

/-- A snapshot is merged, and the counts of the merge are reported. -/
lemma of_payload? {s : Snapshot} (h : Refresh c r report d) (hs : r.payload? = some s) :
    report = .ok (c.cache.merge s).2 := by
  cases h with
  | merged hs' =>
      obtain rfl : s = _ := Option.some_inj.1 (hs.symm.trans hs')
      rfl
  | failed he =>
      rw [he.payload?_eq_none] at hs
      cases hs

/-- Where there is no snapshot, the fault is reported. -/
lemma of_no_payload? (h : Refresh c r report d) (hnone : r.payload? = none) :
    ∃ e, Faulty r e ∧ report = .error e := by
  cases h with
  | merged hs =>
      rw [hnone] at hs
      cases hs
  | failed he => exact ⟨_, he, rfl⟩

end Refresh

/-! ### Any number of attempts -/

/-- The chain after an attempt. -/
def refreshed (c : Chain) (r : Net.Reply) : Chain :=
  (c.refresh r).2

/-- What the attempts report, in order. -/
def reports (c : Chain) (replies : List Net.Reply) : List (Except FeedError MergeCounts) :=
  (history refreshed c replies).map fun e => (e.1.refresh e.2).1

/-- Whether an attempt has failed. -/
def hasFailed : Except FeedError MergeCounts → Bool
  | .ok _ => false
  | .error _ => true

/-- How many entries an attempt has passed over. -/
def passedOver : Except FeedError MergeCounts → ℕ
  | .ok counts => counts.malformed + counts.foreign + counts.stale
  | .error _ => 0

/-- What an attempt adds to the counters. -/
lemma Refresh.counted (h : Refresh c r report d) :
    d.metrics.refreshes = c.metrics.refreshes + 1 ∧
    d.metrics.refreshFailures
      = c.metrics.refreshFailures + (if hasFailed report then 1 else 0) ∧
    d.metrics.entriesSkipped = c.metrics.entriesSkipped + passedOver report := by
  cases h <;> exact ⟨rfl, rfl, rfl⟩

lemma reports_cons (c : Chain) (r : Net.Reply) (rest : List Net.Reply) :
    reports c (r :: rest) = (c.refresh r).1 :: reports (c.refreshed r) rest := rfl

lemma cache_runAll (c : Chain) (replies : List Net.Reply) :
    (runAll refreshed c replies).cache
      = (replies.filterMap Net.Reply.payload?).foldl (fun cache s => (cache.merge s).1)
          c.cache := by
  induction replies generalizing c with
  | nil => rfl
  | cons r rest ih =>
      have hcache : (c.refreshed r).cache = _ := (refresh_spec c r).cache
      rw [runAll_cons, ih, hcache, List.filterMap_cons]
      cases r.payload? <;> rfl

/-- The counters after any sequence of replies. -/
lemma counted_runAll (c : Chain) (replies : List Net.Reply) :
    (runAll refreshed c replies).metrics.refreshes = c.metrics.refreshes + replies.length ∧
    (runAll refreshed c replies).metrics.refreshFailures
      = c.metrics.refreshFailures + (reports c replies).countP hasFailed ∧
    (runAll refreshed c replies).metrics.entriesSkipped
      = c.metrics.entriesSkipped + ((reports c replies).map passedOver).sum := by
  induction replies generalizing c with
  | nil => exact ⟨rfl, rfl, rfl⟩
  | cons r rest ih =>
      obtain ⟨hrest₁, hrest₂, hrest₃⟩ := ih (c.refreshed r)
      obtain ⟨h₁, h₂, h₃⟩ := (refresh_spec c r).counted
      rw [runAll_cons, hrest₁, hrest₂, hrest₃, refreshed, h₁, h₂, h₃, reports_cons]
      refine ⟨?_, ?_, ?_⟩
      · rw [List.length_cons]
        omega
      · rw [List.countP_cons, refreshed]
        omega
      · rw [List.map_cons, List.sum_cons, Nat.add_assoc, refreshed]

/-- **After any sequence of replies**, the cache is what merging the snapshots among them, one
after the other, makes of it. Every attempt whose reply carries a snapshot reports the counts
of its merge; every other one reports the fault of its reply and leaves the cache as it is.
The counters grow by the attempts, by the failures, and by the entries passed over. -/
theorem refreshes_merge (c : Chain) (replies : List Net.Reply) :
    (runAll refreshed c replies).cache
      = (replies.filterMap Net.Reply.payload?).foldl (fun cache s => (cache.merge s).1) c.cache ∧
    (∀ e ∈ history refreshed c replies,
      (∀ s, e.2.payload? = some s →
        (e.1.refresh e.2).1 = .ok (e.1.cache.merge s).2 ∧
        (e.1.refresh e.2).2.cache = (e.1.cache.merge s).1) ∧
      (e.2.payload? = none →
        (∃ error, Faulty e.2 error ∧ (e.1.refresh e.2).1 = .error error) ∧
        (e.1.refresh e.2).2.cache = e.1.cache)) ∧
    (runAll refreshed c replies).metrics.refreshes = c.metrics.refreshes + replies.length ∧
    (runAll refreshed c replies).metrics.refreshFailures
      = c.metrics.refreshFailures + (reports c replies).countP hasFailed ∧
    (runAll refreshed c replies).metrics.entriesSkipped
      = c.metrics.entriesSkipped + ((reports c replies).map passedOver).sum := by
  refine ⟨cache_runAll c replies, fun e _ => ⟨fun s hs => ⟨?_, ?_⟩, fun hnone => ⟨?_, ?_⟩⟩,
    counted_runAll c replies⟩
  · exact (refresh_spec e.1 e.2).of_payload? hs
  · rw [(refresh_spec e.1 e.2).cache, hs, Option.elim_some]
  · exact (refresh_spec e.1 e.2).of_no_payload? hnone
  · rw [(refresh_spec e.1 e.2).cache, hnone, Option.elim_none]

end Chain

end Mintage
