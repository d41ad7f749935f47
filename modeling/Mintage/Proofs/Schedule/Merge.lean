import Mathlib.Tactic.SplitIfs
import Mintage.Proofs.Data.OrderedMap
import Mintage.Proofs.Schedule.Cache

/-!
What a merge leaves under each height.

* `MintCache.lastFor?`: the mint that counts among the accepted ones for a height, which
  is the last in the order of their keys.
* `MintCache.get?_takeIn`: after a merge, the accepted mints on top of those that were
  there from the floor on.
* `MintCache.Keeps`: from its floor on, a cache holds given mints. Noting a finished height
  and cleaning keep them, and a merge adds to them, even one whose floor is an old one.
* `MintCache.Proper`: every mint stands under its own height, pays something, and goes to an
  address with the cache's prefix.
-/

namespace Mintage.MintCache

variable {c : MintCache} {floor height k : UInt64} {verdicts : List Verdict}

/-! ### One merge -/

/-- The last accepted mint for a height. -/
def lastFor? (height : UInt64) (verdicts : List Verdict) : Option Mint :=
  (verdicts.filterMap accepted?).reverse.find? fun m => m.height = height

lemma height_of_lastFor? {m : Mint} (h : lastFor? height verdicts = some m) :
    m.height = height := by
  simpa using List.find?_some h

@[simp] lemma accepted?_eq_some_iff {v : Verdict} {m : Mint} :
    accepted? v = some m ↔ v = .accepted m := by
  cases v <;> simp [accepted?]

lemma mem_of_lastFor? {m : Mint} (h : lastFor? height verdicts = some m) :
    .accepted m ∈ verdicts := by
  have hmem := List.mem_reverse.1 (List.mem_of_find?_eq_some h)
  obtain ⟨v, hv, hm⟩ := List.mem_filterMap.1 hmem
  rwa [← accepted?_eq_some_iff.1 hm]

/-- **After a merge**, the last accepted mint for a height stands there, and where there is
none, what was there, unless it lies below the floor. -/
theorem get?_takeIn (floor : UInt64) (verdicts : List Verdict) (c : MintCache) (k : UInt64) :
    (takeIn floor verdicts c).mints.get? k
      = (lastFor? k verdicts).or (if floor ≤ k then c.mints.get? k else none) := by
  have hstored := OrderedMap.get?_foldl_insert
    ((verdicts.filterMap accepted?).map fun m => (m.height, m)) (keepFrom floor c.mints) k
  -- the key of an entry is its mint's own height, so looking for the one finds the other
  have hpair (o : Option Mint) :
      (o.map fun m => (m.height, m)).map (fun e : UInt64 × Mint => e.2) = o := by
    cases o <;> rfl
  rw [List.foldl_map, ← List.map_reverse, List.find?_map, hpair] at hstored
  rw [takeIn, hstored, get?_keepFrom]
  rfl

/-! ### What a cache holds -/

/-- From its floor on, a cache holds just the mints that are given. -/
def Keeps (c : MintCache) (entry : UInt64 → Option Mint) : Prop :=
  ∀ k, c.floor ≤ k → c.mints.get? k = entry k

namespace Keeps

variable {entry : UInt64 → Option Mint}

lemma new (addressPrefix : String) : (MintCache.new addressPrefix).Keeps fun _ => none :=
  fun _ _ => rfl

/-- A merge adds what it accepts, even where the floor has risen since it was read. -/
lemma takeIn (h : c.Keeps entry) (hfloor : floor ≤ c.floor) (verdicts : List Verdict) :
    (c.takeIn floor verdicts).Keeps fun k => (lastFor? k verdicts).or (entry k) := by
  intro k hk
  rw [get?_takeIn, if_pos (UInt64.le_trans hfloor hk), h k hk]

/-- Noting a finished height changes no mint. -/
lemma markProcessed (h : c.Keeps entry) (height : UInt64) :
    (c.markProcessed height).Keeps entry := by
  refine fun k hk => h k (UInt64.not_lt.1 fun hlt => UInt64.not_lt.2 hk ?_)
  exact (lt_floor_markProcessed_iff c height k).2 (.inl hlt)

/-- Cleaning drops only mints below the floor. -/
lemma prune (h : c.Keeps entry) : c.prune.Keeps entry := by
  intro k hk
  exact (get?_prune c k).trans ((if_pos hk).trans (h k hk))

/-- What is served lies at the floor or above it. -/
lemma lookup (h : c.Keeps entry) (k : UInt64) :
    c.lookup k = if k < c.floor then none else entry k := by
  rw [MintCache.lookup]
  split
  · rfl
  · next hk => exact h k (UInt64.not_lt.1 hk)

end Keeps

/-! ### What stands in a cache -/

/-- A mint that may stand under a height: it is meant for this height, it pays something,
and it goes to an address with the prefix. -/
structure Belongs (addressPrefix : String) (height : UInt64) (m : Mint) : Prop where
  height : m.height = height
  pays : 0 < m.amount
  address : addressPrefix.toList <+: m.address.toList

/-- What is accepted belongs under its height. -/
lemma belongs_of_judge {addressPrefix : String} {entry : String × Int64} {m : Mint}
    (h : judge floor addressPrefix entry = .accepted m) : Belongs addressPrefix m.height m := by
  rw [judge] at h
  split at h
  · cases h
  · split_ifs at h with hamount haddress hfloor
    cases h
    exact ⟨rfl, Int64.not_le.1 hamount, haddress⟩

/-- Every mint in a cache belongs where it stands. -/
def Proper (c : MintCache) : Prop :=
  ∀ k m, c.mints.get? k = some m → Belongs c.addressPrefix k m

/-- A merge takes in only mints that belong, if those are all that it has accepted. -/
lemma Proper.takeIn (h : c.Proper)
    (hverdicts : ∀ m, .accepted m ∈ verdicts → Belongs c.addressPrefix m.height m) :
    (c.takeIn floor verdicts).Proper := by
  intro k m hm
  rw [get?_takeIn, Option.or_eq_some_iff] at hm
  rcases hm with hm | ⟨-, hm⟩
  · exact height_of_lastFor? hm ▸ hverdicts m (mem_of_lastFor? hm)
  · split at hm
    · exact h k m hm
    · cases hm

lemma Proper.prune (h : c.Proper) : c.prune.Proper := by
  intro k m hm
  rw [get?_prune] at hm
  split at hm
  · exact h k m hm
  · cases hm

end Mintage.MintCache
