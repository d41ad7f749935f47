import Mathlib.Data.String.Basic
import Mathlib.Tactic.Lemma
import Mintage.Proofs.Schedule.Sharing
import Mintage.Proofs.Text.Digits
import Mintage.Proofs.Text.Utf8

/-!
The rule by which a snapshot of the feed is merged, stated for itself, and the merge that
follows it.

* `Names`, `splitMintKey?_eq_some_iff`: which keys name an address and a height.
* `splitMintKey?_exact`: a key is read by that grammar, and one that is written reads back.
* `Rated`, `judge_eq_iff`: how an entry is rated. The first test that it fails decides.
* `LastAdmitted`, `lastAdmitted_of_lastFor?`: of the admitted entries for a height the one
  whose key comes last in the order of bytes.
* `MergeRule`, `merge_mergeRule`: what a merge reports, and what it leaves.
* `merge_merge`: the same snapshot merged once more changes nothing.
* `SharedCache.merge_by_rule`: all of this in every cache that steps lead to.
-/

namespace Mintage

/-! ### Keys -/

/-- A key names an address and a height: the address, a slash, and digits that stand for
the height, behind a plus sign or nothing. The address is not empty, and it ends at the
first slash. -/
structure Names (key address : String) (height : UInt64) : Prop where
  nonempty : address ≠ ""
  unslashed : '/' ∉ address.toList
  text : ∃ sign digits, key.toList = address.toList ++ '/' :: (sign ++ digits) ∧
    (sign = [] ∨ sign = ['+']) ∧ Text.Denotes digits height.toNat

/-- **A key is split** into what it names. -/
theorem splitMintKey?_eq_some_iff {key address : String} {height : UInt64} :
    splitMintKey? key = some (address, height) ↔ Names key address height := by
  rw [splitMintKey?]
  constructor
  · intro h
    split at h
    · cases h
    · next chars digits hcut =>
        obtain ⟨hkey, hslash⟩ := Text.splitAt?_eq_some_iff.1 hcut
        split at h
        · cases h
        · next hempty =>
            obtain ⟨w, hw, hpair⟩ := Option.map_eq_some_iff.1 h
            obtain ⟨rfl, rfl⟩ := Prod.mk.inj hpair
            obtain ⟨sign, body, rfl, hsign, hbody⟩ := Text.readUInt64?_eq_some_iff.1 hw
            refine ⟨?_, ?_, sign, body, ?_, hsign, hbody⟩
            · rintro hnil
              exact hempty (by simpa using congrArg String.toList hnil)
            · rwa [String.toList_ofList]
            · rwa [String.toList_ofList]
  · rintro ⟨hempty, hslash, sign, body, hkey, hsign, hbody⟩
    rw [Text.splitAt?_eq_some_iff.2 ⟨hkey, hslash⟩]
    dsimp only
    rw [if_neg (by simpa using hempty),
      Text.readUInt64?_eq_some_iff.2 ⟨sign, body, rfl, hsign, hbody⟩]
    simp

/-- The key of an address and a height as the feed writes it: without a sign, and without zeros in
front. -/
def mintKey (address : String) (height : UInt64) : String :=
  address ++ "/" ++ toString height.toNat

/-- The key of an address and a height names them. -/
lemma names_mintKey {address : String} (hempty : address ≠ "") (hslash : '/' ∉ address.toList)
    (height : UInt64) : Names (mintKey address height) address height := by
  refine ⟨hempty, hslash, [], Text.digits height.toNat, ?_, .inl rfl,
    Text.readNat?_eq_some_iff.1 (Text.readNat?_digits _)⟩
  rw [mintKey, String.toList_append, String.toList_append, Text.toList_toString, List.nil_append]
  exact List.append_assoc ..

/-- **A key is read by its grammar**, and by nothing else: it gives the address and the height that
it names, and nothing where it names none. So the key that is written for an address without a
slash and for any height gives them back. -/
theorem splitMintKey?_exact :
    (∀ key address height,
      splitMintKey? key = some (address, height) ↔ Names key address height) ∧
    (∀ key, splitMintKey? key = none ↔ ∀ address height, ¬ Names key address height) ∧
    ∀ address height, address ≠ "" → '/' ∉ address.toList →
      splitMintKey? (mintKey address height) = some (address, height) := by
  refine ⟨fun _ _ _ => splitMintKey?_eq_some_iff, fun key => ?_,
    fun address height hempty hslash => ?_⟩
  · rw [Option.eq_none_iff_forall_ne_some]
    simp only [Prod.forall, ne_eq, splitMintKey?_eq_some_iff]
  · exact splitMintKey?_eq_some_iff.2 (names_mintKey hempty hslash height)

/-- The greatest height there is reads back. -/
theorem splitMintKey?_exact_greatest :
    "unigrid1" ≠ "" ∧ '/' ∉ "unigrid1".toList ∧
    mintKey "unigrid1" 18446744073709551615 = "unigrid1/18446744073709551615" ∧
    splitMintKey? "unigrid1/18446744073709551615" = some ("unigrid1", 18446744073709551615) := by
  have hempty : "unigrid1" ≠ "" := by decide
  have hslash : '/' ∉ "unigrid1".toList := by decide
  have hkey : mintKey "unigrid1" 18446744073709551615 = "unigrid1/18446744073709551615" := by
    decide +kernel
  have hread := splitMintKey?_exact.2.2 "unigrid1" 18446744073709551615 hempty hslash
  exact ⟨hempty, hslash, hkey, by rwa [hkey] at hread⟩

namespace MintCache

/-! ### Ratings -/

variable {c : MintCache} {floor k : UInt64} {addressPrefix : String} {s : Snapshot}
  {e : String × Int64} {v : Verdict} {m : Mint}

/-- How the rule rates an entry. Each test is made on the entries that pass those before
it: the form of the key, the amount, the prefix of the address, and the height. -/
inductive Rated (floor : UInt64) (addressPrefix : String) (e : String × Int64) :
    Verdict → Prop where
  | badKey (hkey : ∀ address height, ¬ Names e.1 address height) :
      Rated floor addressPrefix e .malformed
  | badAmount {address height} (hkey : Names e.1 address height) (hamount : e.2 ≤ 0) :
      Rated floor addressPrefix e .malformed
  | foreign {address height} (hkey : Names e.1 address height) (hamount : 0 < e.2)
      (haddress : ¬ addressPrefix.toList <+: address.toList) : Rated floor addressPrefix e .foreign
  | stale {address height} (hkey : Names e.1 address height) (hamount : 0 < e.2)
      (haddress : addressPrefix.toList <+: address.toList) (hheight : height < floor) :
      Rated floor addressPrefix e .stale
  | accepted {address height} (hkey : Names e.1 address height) (hamount : 0 < e.2)
      (haddress : addressPrefix.toList <+: address.toList) (hheight : floor ≤ height) :
      Rated floor addressPrefix e (.accepted ⟨address, e.2, height⟩)

/-- Every entry is rated as it is judged. -/
lemma rated_judge (floor : UInt64) (addressPrefix : String) (e : String × Int64) :
    Rated floor addressPrefix e (judge floor addressPrefix e) := by
  rw [judge]
  split
  · next hkey =>
      refine .badKey fun address height hnames => ?_
      rw [splitMintKey?_eq_some_iff.2 hnames] at hkey
      cases hkey
  · next address height hkey =>
      have hnames := splitMintKey?_eq_some_iff.1 hkey
      split
      · next hamount => exact .badAmount hnames hamount
      · next hamount =>
          split
          · next haddress => exact .foreign hnames (Int64.not_le.1 hamount) haddress
          · next haddress =>
              split
              · next hheight =>
                  exact .stale hnames (Int64.not_le.1 hamount) (not_not.1 haddress) hheight
              · next hheight =>
                  exact .accepted hnames (Int64.not_le.1 hamount) (not_not.1 haddress)
                    (UInt64.not_lt.1 hheight)

/-- **An entry has one rating**, and it is judged so. -/
theorem judge_eq_iff : judge floor addressPrefix e = v ↔ Rated floor addressPrefix e v := by
  refine ⟨fun h => h ▸ rated_judge floor addressPrefix e, fun h => ?_⟩
  rw [judge]
  cases h with
  | badKey hkey =>
      cases hsplit : splitMintKey? e.1 with
      | none => rfl
      | some p => exact absurd (splitMintKey?_eq_some_iff.1 hsplit) (hkey p.1 p.2)
  | badAmount hkey hamount =>
      simp only [splitMintKey?_eq_some_iff.2 hkey, if_pos hamount]
  | foreign hkey hamount haddress =>
      simp only [splitMintKey?_eq_some_iff.2 hkey, if_neg (Int64.not_le.2 hamount), if_pos haddress]
  | stale hkey hamount haddress hheight =>
      simp only [splitMintKey?_eq_some_iff.2 hkey, if_neg (Int64.not_le.2 hamount),
        if_neg (not_not.2 haddress), if_pos hheight]
  | accepted hkey hamount haddress hheight =>
      simp only [splitMintKey?_eq_some_iff.2 hkey, if_neg (Int64.not_le.2 hamount),
        if_neg (not_not.2 haddress), if_neg (UInt64.not_lt.2 hheight)]

instance : Decidable (Rated floor addressPrefix e v) :=
  decidable_of_iff _ judge_eq_iff

/-- A plus sign and zeros in front of a height do not matter. -/
example : Rated 7 "unigrid" ("unigrid1a/+007", 5) (.accepted ⟨"unigrid1a", 5, 7⟩) := by
  decide +kernel

/-- An entry that the rule admits. -/
def Admitted (floor : UInt64) (addressPrefix : String) (e : String × Int64) : Prop :=
  ∃ m, Rated floor addressPrefix e (.accepted m)

lemma isSome_accepted?_judge_iff :
    (accepted? (judge floor addressPrefix e)).isSome ↔ Admitted floor addressPrefix e := by
  simp only [Option.isSome_iff_exists, accepted?_eq_some_iff, judge_eq_iff, Admitted]

instance : Decidable (Admitted floor addressPrefix e) :=
  decidable_of_iff _ isSome_accepted?_judge_iff

/-! ### The entry that counts -/

/-- Of the entries that the rule admits for a height, one behind which no other comes in
the order of the keys' bytes; and the mint that it stands for. -/
structure LastAdmitted (floor : UInt64) (addressPrefix : String) (s : Snapshot) (k : UInt64)
    (e : String × Int64) (m : Mint) : Prop where
  mem : e ∈ s.mints.toList
  rated : Rated floor addressPrefix e (.accepted m)
  height : m.height = k
  last : ∀ e' ∈ s.mints.toList, ∀ m', Rated floor addressPrefix e' (.accepted m') →
    m'.height = k → ¬ Text.utf8 e.1 < Text.utf8 e'.1

/-- What is found from the end of an ordered list comes from an entry that no other one
with the same outcome is above. -/
lemma last_of_find?_reverse {α β : Type} {R : α → α → Prop} {l : List α} (hl : l.Pairwise R)
    {f : α → Option β} {p : β → Bool} {b : β} (h : (l.filterMap f).reverse.find? p = some b) :
    ∃ a ∈ l, f a = some b ∧ p b ∧ ∀ a' ∈ l, ∀ b', f a' = some b' → p b' → a' = a ∨ R a' a := by
  obtain ⟨hp, after, before, hsplit, hafter⟩ := List.find?_eq_some_iff_append.1 h
  have hfound : l.filterMap f = before.reverse ++ b :: after.reverse := by
    rw [← List.reverse_reverse (l.filterMap f), hsplit]
    simp
  obtain ⟨l₁, l₂, rfl, -, h₂⟩ := List.filterMap_eq_append_iff.1 hfound
  obtain ⟨skipped, a, l₃, rfl, hskipped, ha, h₃⟩ := List.filterMap_eq_cons_iff.1 h₂
  refine ⟨a, by simp, ha, hp, fun a' ha' b' hb' hp' => ?_⟩
  have hbelow {x : α} (hx : x ∈ l₁ ++ skipped) : R x a := by
    rw [← List.append_assoc] at hl
    exact (List.pairwise_append.1 hl).2.2 x hx a (List.mem_cons_self ..)
  rw [← List.append_assoc] at ha'
  rcases List.mem_append.1 ha' with ha' | ha'
  · exact .inr (hbelow ha')
  · rcases List.mem_cons.1 ha' with rfl | ha'
    · exact .inl rfl
    -- an entry behind this one would have been found first
    · have hmem : b' ∈ after.reverse := h₃ ▸ List.mem_filterMap.2 ⟨a', ha', hb'⟩
      have := hafter b' (List.mem_reverse.1 hmem)
      rw [hp'] at this
      cases this

lemma filterMap_accepted?_screen (floor : UInt64) (addressPrefix : String) (s : Snapshot) :
    (screen floor addressPrefix s).filterMap accepted?
      = s.mints.toList.filterMap fun e => accepted? (judge floor addressPrefix e) := by
  rw [screen, List.filterMap_map]
  rfl

lemma accepted?_judge_eq_some_iff :
    accepted? (judge floor addressPrefix e) = some m ↔
      Rated floor addressPrefix e (.accepted m) := by
  rw [accepted?_eq_some_iff, judge_eq_iff]

/-- **The mint that counts** for a height is that of the last admitted entry. -/
lemma lastAdmitted_of_lastFor? (h : lastFor? k (screen floor addressPrefix s) = some m) :
    ∃ e, LastAdmitted floor addressPrefix s k e m := by
  rw [lastFor?, filterMap_accepted?_screen] at h
  obtain ⟨e, hmem, he, hk, hlast⟩ := last_of_find?_reverse s.mints.sorted h
  refine ⟨e, hmem, accepted?_judge_eq_some_iff.1 he, of_decide_eq_true hk,
    fun e' hmem' m' hm' hk' hlt => ?_⟩
  rw [Text.utf8_lt_iff] at hlt
  rcases hlast e' hmem' m' (accepted?_judge_eq_some_iff.2 hm') (decide_eq_true hk') with rfl | hgt
  · exact lt_irrefl _ hlt
  · exact lt_asymm hlt hgt

/-- Where no mint counts for a height, no entry is admitted for it. -/
lemma ne_height_of_lastFor? (h : lastFor? k (screen floor addressPrefix s) = none) :
    ∀ e ∈ s.mints.toList, ∀ m, Rated floor addressPrefix e (.accepted m) → m.height ≠ k := by
  intro e hmem m hm hk
  rw [lastFor?, filterMap_accepted?_screen, List.find?_eq_none] at h
  refine h m (List.mem_reverse.2 (List.mem_filterMap.2 ⟨e, hmem, ?_⟩)) (decide_eq_true hk)
  exact accepted?_judge_eq_some_iff.2 hm

/-! ### The merge -/

/-- What a merge of a snapshot makes of a cache `c`: a cache `d`, and a report. -/
structure MergeRule (c : MintCache) (s : Snapshot) (d : MintCache) (counts : MergeCounts) :
    Prop where
  malformed : counts.malformed
    = s.mints.toList.countP fun e => Rated c.floor c.addressPrefix e .malformed
  foreign : counts.foreign
    = s.mints.toList.countP fun e => Rated c.floor c.addressPrefix e .foreign
  stale : counts.stale = s.mints.toList.countP fun e => Rated c.floor c.addressPrefix e .stale
  inserted : counts.inserted = s.mints.toList.countP fun e => Admitted c.floor c.addressPrefix e
  total : counts.malformed + counts.foreign + counts.stale + counts.inserted = s.mints.size
  pruned : counts.pruned = c.mints.toList.countP fun e => e.1 < c.floor
  floor : d.floor = c.floor
  addressPrefix : d.addressPrefix = c.addressPrefix
  /-- A height holds what is admitted for it, or else what it held from the floor on. -/
  mints : ∀ k,
    (∃ e m, LastAdmitted c.floor c.addressPrefix s k e m ∧ d.mints.get? k = some m) ∨
    (∀ e ∈ s.mints.toList, ∀ m, Rated c.floor c.addressPrefix e (.accepted m) → m.height ≠ k) ∧
      d.mints.get? k = if c.floor ≤ k then c.mints.get? k else none

/-- The entries with a rating, counted among the verdicts. -/
lemma count_screen (floor : UInt64) (addressPrefix : String) (s : Snapshot) (v : Verdict) :
    (screen floor addressPrefix s).count v
      = s.mints.toList.countP fun e => Rated floor addressPrefix e v := by
  rw [screen, List.count, List.countP_map]
  refine List.countP_congr fun e _ => ?_
  simp [judge_eq_iff]

lemma length_accepted?_screen (floor : UInt64) (addressPrefix : String) (s : Snapshot) :
    ((screen floor addressPrefix s).filterMap accepted?).length
      = s.mints.toList.countP fun e => Admitted floor addressPrefix e := by
  rw [filterMap_accepted?_screen, List.length_filterMap_eq_countP]
  refine List.countP_congr fun e _ => ?_
  rw [decide_eq_true_iff, isSome_accepted?_judge_iff]

/-- Every verdict is counted once. -/
lemma counts_verdicts (verdicts : List Verdict) :
    verdicts.count .malformed + verdicts.count .foreign + verdicts.count .stale
      + (verdicts.filterMap accepted?).length = verdicts.length := by
  induction verdicts with
  | nil => rfl
  | cons v r ih =>
      cases v <;> simp [accepted?, List.filterMap_cons] <;> omega

lemma pruned_eq (c : MintCache) (floor : UInt64) :
    c.mints.size - (keepFrom floor c.mints).size
      = c.mints.toList.countP fun e => e.1 < floor := by
  have hkept : (keepFrom floor c.mints).size = c.mints.toList.countP fun e => floor ≤ e.1 :=
    List.countP_eq_length_filter.symm
  have hall := List.length_eq_countP_add_countP (l := c.mints.toList)
    fun e : UInt64 × Mint => decide (floor ≤ e.1)
  simp only [decide_eq_true_eq, UInt64.not_le] at hall
  rw [hkept, OrderedMap.size]
  omega

/-- **A merge follows the rule.** -/
theorem merge_mergeRule (c : MintCache) (s : Snapshot) :
    MergeRule c s (c.merge s).1 (c.merge s).2 where
  malformed := count_screen c.floor c.addressPrefix s .malformed
  foreign := count_screen c.floor c.addressPrefix s .foreign
  stale := count_screen c.floor c.addressPrefix s .stale
  inserted := length_accepted?_screen c.floor c.addressPrefix s
  total := (counts_verdicts _).trans (List.length_map ..)
  pruned := pruned_eq c c.floor
  floor := rfl
  addressPrefix := rfl
  mints k := by
    rw [merge, get?_takeIn]
    cases hlast : lastFor? k (screen c.floor c.addressPrefix s) with
    | some m =>
        obtain ⟨e, he⟩ := lastAdmitted_of_lastFor? hlast
        exact .inl ⟨e, m, he, rfl⟩
    | none => exact .inr ⟨ne_height_of_lastFor? hlast, rfl⟩

/-- The same mints taken in once more change nothing. -/
lemma takeIn_takeIn (floor : UInt64) (verdicts : List Verdict) (c : MintCache) :
    takeIn floor verdicts (takeIn floor verdicts c) = takeIn floor verdicts c := by
  have hmints : (takeIn floor verdicts (takeIn floor verdicts c)).mints
      = (takeIn floor verdicts c).mints := by
    refine OrderedMap.ext fun k => ?_
    rw [get?_takeIn, get?_takeIn]
    cases lastFor? k verdicts with
    | some m => rfl
    | none => by_cases hk : floor ≤ k <;> simp [hk]
  exact congrArg (fun mints => { c with mints }) hmints

/-- **The same snapshot merged once more** changes nothing. -/
theorem merge_merge (c : MintCache) (s : Snapshot) :
    ((c.merge s).1.merge s).1 = (c.merge s).1 :=
  takeIn_takeIn c.floor (screen c.floor c.addressPrefix s) c

end MintCache

/-! ### Reachable caches -/

/-- **In every cache that steps lead to**, a merge follows the rule: each entry has one
rating, the report counts the ratings, and each height holds the last mint that is admitted
for it, or what it held. Every mint belongs where it stands, before the merge and after it,
and the same snapshot merged once more changes nothing. -/
theorem SharedCache.merge_by_rule (addressPrefix : String) (run : List CacheStep) (s : Snapshot) :
    let c := (reached addressPrefix run).cache
    let d := (c.merge s).1
    c.addressPrefix = addressPrefix ∧
    (∀ e ∈ s.mints.toList, ∃! v, MintCache.Rated c.floor addressPrefix e v) ∧
    MintCache.MergeRule c s d (c.merge s).2 ∧
    (∀ k m, c.mints.get? k = some m → MintCache.Belongs addressPrefix k m) ∧
    (∀ k m, d.mints.get? k = some m → MintCache.Belongs addressPrefix k m) ∧
    (d.merge s).1 = d := by
  intro c d
  have hstart : c.addressPrefix = addressPrefix := addressPrefix_reached addressPrefix run
  have hproper : c.Proper := proper_reached addressPrefix run
  have hmerged : d.Proper :=
    hproper.takeIn fun _ => belongs_of_mem_screen (n := reached addressPrefix run)
  refine ⟨hstart, fun e _ => ?_, MintCache.merge_mergeRule c s, ?_, ?_, MintCache.merge_merge c s⟩
  · exact ⟨_, MintCache.judge_eq_iff.1 rfl, fun v hv => (MintCache.judge_eq_iff.2 hv).symm⟩
  · exact hstart ▸ hproper
  · exact hstart ▸ hmerged

end Mintage
