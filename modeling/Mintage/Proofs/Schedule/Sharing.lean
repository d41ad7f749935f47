import Mintage.Proofs.Data.History
import Mintage.Proofs.Schedule.Merge

/-!
The cache as the feed and the blocks share it. A merge reads the floor and judges its
snapshot by it; later, once it has the lock, it takes the accepted mints in. Between the
two any number of other merges and of the blocks' own steps can happen, so that the floor
it goes by may be an old one.

* `SharedCache.step`: the steps that can follow each other in any order.
* `SharedCache.screen_takeIn`: a merge in one go is one with nothing between its two steps.
* `SharedCache.lt_floor_runAll`: the floor stands above the finished heights.
* `SharedCache.keeps_reached`: from the floor on, a cache holds for every height the mint
  that was last stored for it.
* `SharedCache.proper_reached`: every mint belongs where it stands.
* `SharedCache.served_exact`: what a cache serves, and which height it calls the last
  finished one.
* `SharedCache.interleaving_safe`: what a cache holds, in whatever order the steps come.
-/

namespace Mintage

/-- A merge that has judged its snapshot, with the floor that it went by. -/
structure Screening where
  floor : UInt64
  verdicts : List Verdict

/-- A cache, and the merges that wait to take their mints in. -/
structure SharedCache where
  cache : MintCache
  waiting : List Screening

/-- What can happen to a cache. -/
inductive CacheStep where
  /-- A merge goes through at once. -/
  | merge (s : Snapshot)
  /-- A merge reads the floor and judges its snapshot. -/
  | screen (s : Snapshot)
  /-- One of the waiting merges gets the lock and takes its mints in. -/
  | takeIn (i : Nat)
  | markProcessed (height : UInt64)
  | prune
  | lookup (height : UInt64)

namespace SharedCache

/-- A new cache, for which no merge waits. -/
def new (addressPrefix : String) : SharedCache := ⟨.new addressPrefix, []⟩

/-- The verdicts on a snapshot as things stand. -/
def screen (n : SharedCache) (s : Snapshot) : List Verdict :=
  MintCache.screen n.cache.floor n.cache.addressPrefix s

/-- The cache after a step. Looking a height up changes nothing. -/
def step (n : SharedCache) : CacheStep → SharedCache
  | .merge s => { n with cache := (n.cache.merge s).1 }
  | .screen s => { n with waiting := n.waiting ++ [⟨n.cache.floor, n.screen s⟩] }
  | .takeIn i =>
      match n.waiting[i]? with
      | none => n
      | some w => ⟨n.cache.takeIn w.floor w.verdicts, n.waiting.eraseIdx i⟩
  | .markProcessed height => { n with cache := n.cache.markProcessed height }
  | .prune => { n with cache := n.cache.prune }
  | .lookup _ => n

/-- The mint that a step stores for a height. -/
def stores (height : UInt64) : SharedCache × CacheStep → Option Mint
  | (n, .merge s) => MintCache.lastFor? height (n.screen s)
  | (n, .takeIn i) => n.waiting[i]?.bind fun w => MintCache.lastFor? height w.verdicts
  | _ => none

/-- The cache that a run of steps leads to. -/
def reached (addressPrefix : String) (run : List CacheStep) : SharedCache :=
  runAll step (new addressPrefix) run

/-- The mint that a run has last stored for a height. -/
def lastStored (addressPrefix : String) (run : List CacheStep) (height : UInt64) : Option Mint :=
  latest (stores height) (history step (new addressPrefix) run)

/-- A merge in one go is one with nothing between its two steps. -/
lemma screen_takeIn (n : SharedCache) (s : Snapshot) :
    (n.step (.screen s)).step (.takeIn n.waiting.length) = n.step (.merge s) := by
  have hlast (w : Screening) : (n.waiting ++ [w])[n.waiting.length]? = some w :=
    List.getElem?_concat_length
  have herase (w : Screening) : (n.waiting ++ [w]).eraseIdx n.waiting.length = n.waiting := by
    rw [List.eraseIdx_append_of_length_le (Nat.le_refl _), Nat.sub_self]
    exact List.append_nil _
  simp only [step, hlast, herase]
  rfl

/-! ### The floor -/

/-- A run has noted a height, or one above it, as finished. The greatest height has no
floor above it, so it is never finished. -/
def Finished (run : List CacheStep) (k : UInt64) : Prop :=
  k.toNat + 1 < UInt64.size ∧ ∃ h, .markProcessed h ∈ run ∧ k ≤ h

lemma finished_cons_iff {i : CacheStep} {r : List CacheStep} {k : UInt64} :
    Finished (i :: r) k ↔ Finished [i] k ∨ Finished r k := by
  simp only [Finished, List.mem_cons, List.not_mem_nil, or_false, ← and_or_left, or_and_right,
    exists_or]

/-- Only noting a finished height moves the floor. -/
lemma lt_floor_step (n : SharedCache) (i : CacheStep) (k : UInt64) :
    k < (n.step i).cache.floor ↔ k < n.cache.floor ∨ Finished [i] k := by
  have hquiet (hi : ∀ h, .markProcessed h ≠ i) : ¬ Finished [i] k := by
    rintro ⟨-, h, hmem, -⟩
    exact hi h (List.mem_singleton.1 hmem)
  cases i with
  | markProcessed height =>
      have hone : Finished [.markProcessed height] k ↔
          k.toNat + 1 < UInt64.size ∧ k ≤ height := by simp [Finished]
      rw [hone]
      exact MintCache.lt_floor_markProcessed_iff n.cache height k
  | takeIn j =>
      rw [or_iff_left (hquiet nofun), step]
      split <;> rfl
  | merge s => exact (or_iff_left (hquiet nofun)).symm
  | screen s => exact (or_iff_left (hquiet nofun)).symm
  | prune => exact (or_iff_left (hquiet nofun)).symm
  | lookup height => exact (or_iff_left (hquiet nofun)).symm

/-- **The floor** stands above the finished heights, and above those that lay below it at
the start. -/
theorem lt_floor_runAll (n : SharedCache) (run : List CacheStep) (k : UInt64) :
    k < (runAll step n run).cache.floor ↔ k < n.cache.floor ∨ Finished run k := by
  induction run generalizing n with
  | nil => simp [runAll, Finished]
  | cons i r ih => rw [runAll_cons, ih, lt_floor_step, or_assoc, ← finished_cons_iff]

lemma lt_floor_reached_iff (addressPrefix : String) (run : List CacheStep) (k : UInt64) :
    k < (reached addressPrefix run).cache.floor ↔ Finished run k :=
  (lt_floor_runAll _ run k).trans (or_iff_right (Nat.not_lt_zero _))

/-- The floor never falls. -/
lemma floor_le_step (n : SharedCache) (i : CacheStep) : n.cache.floor ≤ (n.step i).cache.floor :=
  UInt64.not_lt.1 fun hlt => UInt64.lt_irrefl _ ((lt_floor_step n i _).2 (.inl hlt))

/-! ### The mints -/

/-- No merge that waits has read a floor that is still to come. -/
def Current (n : SharedCache) : Prop :=
  ∀ w ∈ n.waiting, w.floor ≤ n.cache.floor

lemma step_current {n : SharedCache} (h : n.Current) (i : CacheStep) : (n.step i).Current := by
  have hsame (w : Screening) (hw : w ∈ n.waiting) : w.floor ≤ (n.step i).cache.floor :=
    UInt64.le_trans (h w hw) (floor_le_step n i)
  intro w hw
  cases i with
  | screen s =>
      rcases List.mem_append.1 hw with hw | hw
      · exact hsame w hw
      · rw [List.mem_singleton.1 hw]
        exact UInt64.le_rfl
  | takeIn j =>
      refine hsame w ?_
      rw [step] at hw
      split at hw
      · exact hw
      · exact List.mem_of_mem_eraseIdx hw
  | merge s => exact hsame w hw
  | markProcessed height => exact hsame w hw
  | prune => exact hsame w hw
  | lookup height => exact hsame w hw

/-- **A step** adds to what a cache holds from the floor on just what it stores. -/
lemma step_keeps {n : SharedCache} {entry : UInt64 → Option Mint} (hn : n.Current)
    (h : n.cache.Keeps entry) (i : CacheStep) :
    (n.step i).cache.Keeps fun k => (stores k (n, i)).or (entry k) := by
  cases i with
  | merge s => exact h.takeIn UInt64.le_rfl (n.screen s)
  | takeIn j =>
      simp only [step, stores]
      cases hw : n.waiting[j]? with
      | none => exact h
      -- the floor may have risen since the merge has read it
      | some w => exact h.takeIn (hn w (List.mem_of_getElem? hw)) w.verdicts
  | markProcessed height => exact h.markProcessed height
  | prune => exact h.prune
  | screen s => exact h
  | lookup height => exact h

/-- **From the floor on**, a cache holds for every height the mint that was last stored
for it. -/
theorem keeps_reached (addressPrefix : String) (run : List CacheStep) :
    (reached addressPrefix run).cache.Keeps (lastStored addressPrefix run) :=
  (history_induction
    (I := fun past (n : SharedCache) => n.Current ∧ n.cache.Keeps fun k => latest (stores k) past)
    (fun _ _ i _ h => ⟨step_current h.1 i, by
      simpa only [latest_concat] using step_keeps h.1 h.2 i⟩)
    ⟨fun _ hw => absurd hw List.not_mem_nil, .new addressPrefix⟩).2

/-- No step changes the prefix. -/
lemma addressPrefix_step (n : SharedCache) (i : CacheStep) :
    (n.step i).cache.addressPrefix = n.cache.addressPrefix := by
  cases i with
  | takeIn j =>
      rw [step]
      split <;> rfl
  | _ => rfl

lemma addressPrefix_reached (addressPrefix : String) (run : List CacheStep) :
    (reached addressPrefix run).cache.addressPrefix = addressPrefix :=
  run_invariant (I := fun n : SharedCache => n.cache.addressPrefix = addressPrefix)
    (fun n i h => (addressPrefix_step n i).trans h) rfl run

/-- The mints in the cache belong where they stand, and so do those that wait to be taken
in. -/
structure Proper (n : SharedCache) : Prop where
  cache : n.cache.Proper
  waiting : ∀ w ∈ n.waiting, ∀ m, .accepted m ∈ w.verdicts →
    MintCache.Belongs n.cache.addressPrefix m.height m

/-- What a snapshot has accepted belongs under its height. -/
lemma belongs_of_mem_screen {n : SharedCache} {s : Snapshot} {m : Mint}
    (h : .accepted m ∈ n.screen s) : MintCache.Belongs n.cache.addressPrefix m.height m := by
  obtain ⟨entry, -, hentry⟩ := List.mem_map.1 h
  exact MintCache.belongs_of_judge hentry

lemma step_proper {n : SharedCache} (h : n.Proper) (i : CacheStep) : (n.step i).Proper := by
  cases i with
  | merge s => exact ⟨h.cache.takeIn fun _ => belongs_of_mem_screen, h.waiting⟩
  | screen s =>
      refine ⟨h.cache, fun w hw => ?_⟩
      rcases List.mem_append.1 hw with hw | hw
      · exact h.waiting w hw
      · rw [List.mem_singleton.1 hw]
        exact fun m => belongs_of_mem_screen
  | takeIn j =>
      rw [step]
      split
      · exact h
      · next w hw =>
          refine ⟨h.cache.takeIn (h.waiting w (List.mem_of_getElem? hw)), fun w' hw' => ?_⟩
          exact h.waiting w' (List.mem_of_mem_eraseIdx hw')
  | markProcessed height => exact ⟨h.cache, h.waiting⟩
  | prune => exact ⟨h.cache.prune, h.waiting⟩
  | lookup height => exact h

/-- **Every mint** that a run leaves belongs where it stands. -/
theorem proper_reached (addressPrefix : String) (run : List CacheStep) :
    (reached addressPrefix run).cache.Proper :=
  (run_invariant (I := Proper) (fun _ i h => step_proper h i)
    ⟨by rintro k m ⟨⟩, fun _ hw => absurd hw List.not_mem_nil⟩ run).cache

/-! ### What is served -/

/-- The greatest height that can be finished. -/
def lastFinishable : UInt64 := 18446744073709551614

lemma le_lastFinishable_iff {k : UInt64} : k ≤ lastFinishable ↔ k.toNat + 1 < UInt64.size := by
  have hlast : lastFinishable.toNat + 2 = UInt64.size := rfl
  rw [UInt64.le_iff_toNat_le]
  omega

/-- **What a cache serves.** After any run of steps, no finished height is served; for
every other one the mint that was last stored for it is. The last finished height is the
greatest one that was noted, or the one before it if that is the greatest of all. -/
theorem served_exact (addressPrefix : String) (run : List CacheStep) :
    (∀ k, Finished run k → (reached addressPrefix run).cache.lookup k = none) ∧
    (∀ k, ¬ Finished run k →
      (reached addressPrefix run).cache.lookup k = lastStored addressPrefix run k) ∧
    ((∀ h, .markProcessed h ∉ run) → (reached addressPrefix run).cache.processedHeight? = none) ∧
    ∀ h, .markProcessed h ∈ run → (∀ j, .markProcessed j ∈ run → j ≤ h) →
      (reached addressPrefix run).cache.processedHeight? = some (min h lastFinishable) := by
  have hserved := (keeps_reached addressPrefix run).lookup
  have hfloor := lt_floor_reached_iff addressPrefix run
  refine ⟨?_, ?_, ?_, ?_⟩
  · intro k hk
    rw [hserved, if_pos ((hfloor k).2 hk)]
  · intro k hk
    rw [hserved, if_neg (mt (hfloor k).1 hk)]
  · intro hnone
    refine MintCache.processedHeight?_of_floor_le fun k => UInt64.not_lt.1 ?_
    rw [hfloor]
    rintro ⟨-, h, hmem, -⟩
    exact hnone h hmem
  · intro h hmem hgreatest
    refine MintCache.processedHeight?_of_lt_floor_iff fun k => ?_
    rw [hfloor, Finished, ← le_lastFinishable_iff, Word.le_min_iff, and_comm]
    refine and_congr_left fun _ => ⟨?_, fun hk => ⟨h, hmem, hk⟩⟩
    rintro ⟨j, hj, hk⟩
    exact UInt64.le_trans hk (hgreatest j hj)

/-- A feed that schedules one mint, of a hundred tokens at the greatest height. -/
def greatestHeightFeed : Snapshot :=
  { Snapshot.empty with
    mints := OrderedMap.empty.insert
      "unigrid1pk2sxhrywmxsqtnas3p7gu0t8x43hlvy4jatsg/18446744073709551615" 100 }

/-- The greatest height is served even after it was noted as finished, and it is never
called the last finished one. -/
theorem greatest_height_served_when_finished :
    (reached "unigrid" [.merge greatestHeightFeed,
        .markProcessed 18446744073709551615]).cache.lookup 18446744073709551615
      = some ⟨"unigrid1pk2sxhrywmxsqtnas3p7gu0t8x43hlvy4jatsg", 100, 18446744073709551615⟩ ∧
    (reached "unigrid" [.merge greatestHeightFeed,
        .markProcessed 18446744073709551615]).cache.processedHeight?
      = some 18446744073709551614 := by
  decide +kernel

/-- **What a cache holds**, in whatever order the steps of its merges and of the blocks
come. Every mint stands under its own height. A finished height is not served, and holds
nothing once the cache is cleaned, even where a merge with an older floor has stored a
mint for it. Any other height holds, and serves, the mint that was last stored for it. -/
theorem interleaving_safe (addressPrefix : String) (run : List CacheStep) (k : UInt64) :
    (∀ m, (reached addressPrefix run).cache.mints.get? k = some m → m.height = k) ∧
    (Finished run k →
      (reached addressPrefix run).cache.lookup k = none ∧
      (reached addressPrefix (run ++ [.prune])).cache.mints.get? k = none) ∧
    (¬ Finished run k →
      (reached addressPrefix run).cache.mints.get? k = lastStored addressPrefix run k ∧
      (reached addressPrefix run).cache.lookup k = lastStored addressPrefix run k) := by
  have hkeeps := keeps_reached addressPrefix run
  have hfloor := lt_floor_reached_iff addressPrefix run k
  refine ⟨fun m hm => (proper_reached addressPrefix run k m hm).height, fun hk => ⟨?_, ?_⟩,
    fun hk => ⟨?_, ?_⟩⟩
  · rw [hkeeps.lookup, if_pos (hfloor.2 hk)]
  · rw [reached, runAll_append]
    show (reached addressPrefix run).cache.prune.mints.get? k = none
    rw [MintCache.get?_prune, if_neg (UInt64.not_le.2 (hfloor.2 hk))]
  · exact hkeeps k (UInt64.not_lt.1 (mt hfloor.1 hk))
  · rw [hkeeps.lookup, if_neg (mt hfloor.1 hk)]

end SharedCache

end Mintage
