import Mintage.Proofs.Block.Effect
import Mintage.Proofs.Block.Producer
import Mintage.Proofs.Schedule.Merge

/-!
What the feed schedules is what the blocks report. The floor of a producer's cache stands
just above the last block, so that nothing scheduled for a block to come is turned away,
and nothing scheduled for a block that is finished comes back.

* `Chain.beginBlock_reports`: a finished block reports the mint that the cache serves for
  its height.
* `Producer.Site.scheduled`: the mint that the feed has last scheduled for a height since
  the process was started.
* `Producer.Site.step_attuned`: however merges, attempts at blocks and restarts follow each
  other, the cache holds for the blocks to come just what is scheduled.
* `Producer.Site.produce_reports`: a block that is produced reports what is pending for its
  height.
* `Producer.Site.refused_note_hides_mint`: a block that reports no mint, though one is
  scheduled for its height.

A block that is finished, but whose note the store refuses, is begun once more by the next
attempt, which finds its height finished: nothing is pending for it any more, whatever is
scheduled. `Producer.Site.Unnoted` says of which blocks that is so; as long as no note is
refused, of none (`Producer.Site.pending_of_noted`).
-/

namespace Mintage

open StoreM

/-! ### One block -/

/-- What a block over a ledger can report of a mint that is scheduled for it: the mint is
skipped, or its tokens go to its address in base units. -/
inductive Reports (L : Ledger) (height : UInt64) (m : Mint) : ExternalMint → Prop where
  | skipped (e : MintError) : Reports L height m (.skipped m.address e)
  | applied {p : Params} {amount : UInt64} {record : MintRecord} {transition : Transition}
      (params : L.params? = .ok (some p))
      (units : (amount.toNat : Int) = m.amount.toInt * unitsPerToken)
      (recorded : record.blockHeight = height)
      (account : record.account = m.address)
      (coins : record.amount = .ofCoin ⟨p.mintDenom, amount⟩) :
      Reports L height m (.applied record transition)

namespace Chain

/-- **A finished block** reports the mint that the cache serves for its height, and none
where it serves none. -/
theorem beginBlock_reports {c : Chain} {s : Settings} {o : Outages} {ctx : BlockContext}
    {outcome : BlockOutcome} (h : (c.beginBlock s o ctx).1 = .ok outcome) :
    match c.cache.lookup ctx.height with
    | none => outcome.external = .none
    | some m => Reports c.ledger ctx.height m outcome.external := by
  rcases c.beginBlock_cases s o ctx with ⟨e, L, -, hends⟩ | ⟨i, L, hissue, ⟨hnone, hends⟩ |
    ⟨m, r, M, hsome, happly, hhow⟩⟩
  · cases hends.result.symm.trans h
  · cases hends.result.symm.trans h
    rw [hnone]
    rfl
  rw [hsome]
  rcases hhow with ⟨record, transition, rfl, hends⟩ | ⟨e, -, -, hends⟩ | ⟨e, -, -, hends⟩ |
    ⟨-, hends⟩ <;> cases hends.result.symm.trans h
  · obtain ⟨⟨address, amount, hdelivered⟩, -, -⟩ := applyScheduled_delivered happly
    have hreported := hdelivered.reported
    exact .applied (issueSubsidy_issued hissue).params hdelivered.units (by rw [hreported])
      (by rw [hreported]) (by rw [hreported])
  · exact .skipped e

end Chain

namespace Producer

/-- The lowest height that a producer still has to finish. -/
def floor (p : Producer) : UInt64 :=
  match p.last with
  | none => 0
  | some (height, _) => Word.next height

lemma floor_le_of_next {p : Producer} {height : UInt64} (h : p.nextHeight? = some height) :
    p.floor ≤ height := by
  rw [nextHeight?] at h
  rw [floor, UInt64.le_iff_toNat_le]
  cases hlast : p.last with
  | none => exact Nat.zero_le _
  | some b =>
      rw [hlast] at h
      have hheight := Word.ofNat?_eq_some_iff.1 h
      rw [Word.toNat_next]
      omega

/-- Going on from the last noted block takes the cache over with that height finished. -/
lemma resume_ok {c d : Chain} {o : Outages} {p : Producer} (h : resume c o = (.ok p, d)) :
    d.cache = match p.last with
      | none => c.cache
      | some (height, _) => c.cache.markProcessed height := by
  rw [resume] at h
  rcases hrun : c.run o storedBlock with ⟨e | _ | ⟨height, time⟩, b⟩ <;> rw [hrun] at h <;> cases h
  · exact congrArg (·.2.cache) hrun.symm
  · exact congrArg (fun r => r.2.cache.markProcessed height) hrun.symm

namespace Site

/-! ### The schedule -/

/-- What a step does to the schedule of a height: a merge that accepts a mint for it
schedules that one, the last one in the order of the keys; a process that is started anew
has nothing scheduled. -/
def schedules (height : UInt64) : Site × SiteStep → Option (Option Mint)
  | (n, .merge s) =>
      let c := n.chain.cache
      (MintCache.lastFor? height (MintCache.screen c.floor c.addressPrefix s)).map some
  | (_, .resume _ _) => some none
  | (_, .produce _ _ _) => none

/-- The mint that is scheduled for a height after some steps. -/
def scheduled (height : UInt64) (past : List (Site × SiteStep)) : Option Mint :=
  (latest (schedules height) past).join

lemma scheduled_merge (height : UInt64) (past : List (Site × SiteStep)) (n : Site) (s : Snapshot) :
    scheduled height (past ++ [(n, .merge s)])
      = (MintCache.lastFor? height
          (MintCache.screen n.chain.cache.floor n.chain.cache.addressPrefix s)).or
        (scheduled height past) := by
  simp only [scheduled, latest_concat, schedules]
  cases MintCache.lastFor? height _ <;> rfl

lemma scheduled_resume (height : UInt64) (past : List (Site × SiteStep)) (n : Site) (o : Outages)
    (addressPrefix : String) :
    scheduled height (past ++ [(n, .resume o addressPrefix)]) = none := by
  simp only [scheduled, latest_concat, schedules]
  rfl

lemma scheduled_produce (height : UInt64) (past : List (Site × SiteStep)) (n : Site) (s : Settings)
    (o : Outages) (time : Timestamp) :
    scheduled height (past ++ [(n, .produce s o time)]) = scheduled height past := by
  simp only [scheduled, latest_concat, schedules]
  rfl

/-! ### Blocks that are not noted -/

/-- What a step tells of whether the block of a height is finished and was not noted: an
attempt finishes it, and its note is refused; or a process starts anew. -/
def refusesNote (height : UInt64) : Site × SiteStep → Option Bool
  | (⟨some p, c⟩, .produce s o time) =>
      if p.nextHeight? = some height ∧ (c.beginBlock s o (p.context height time)).1.isOk ∧
        (o .setLastBlock).isSome then some true else none
  | (_, .resume _ _) => some false
  | _ => none

/-- Since the process was started, an attempt has finished the block of a height, and its
note was refused. -/
def Unnoted (height : UInt64) (past : List (Site × SiteStep)) : Prop :=
  latest (refusesNote height) past = some true

instance (height : UInt64) (past : List (Site × SiteStep)) : Decidable (Unnoted height past) :=
  inferInstanceAs (Decidable (_ = _))

section Concat

variable {height : UInt64} {past : List (Site × SiteStep)} {e : Site × SiteStep}

/-- A note is refused by the last step, or it was before and the last step tells nothing. -/
lemma unnoted_concat : Unnoted height (past ++ [e]) ↔
    refusesNote height e = some true ∨ refusesNote height e = none ∧ Unnoted height past := by
  rw [Unnoted, latest_concat, Option.or_eq_some_iff]
  rfl

lemma unnoted_concat_of_none (h : refusesNote height e = none) :
    Unnoted height (past ++ [e]) ↔ Unnoted height past := by
  simp [unnoted_concat, h]

end Concat

/-- As long as no note is refused, every finished block is noted. -/
lemma not_unnoted (c : Chain) {run : List SiteStep}
    (hnote : ∀ s o time, .produce s o time ∈ run → o .setLastBlock = none) (height : UInt64) :
    ¬ Unnoted height (history step (idle c) run) := by
  refine history_induction (I := fun past (_ : Site) => ¬ Unnoted height past)
    (fun past n i hi h hunnoted => ?_) nofun
  rcases unnoted_concat.1 hunnoted with hrefuses | ⟨-, hbefore⟩
  · rcases n with ⟨_ | p, d⟩ <;> cases i with
    | produce s o time => simp [refusesNote, hnote s o time hi] at hrefuses
    | merge s => cases hrefuses
    | resume o addressPrefix => cases hrefuses
  · exact h hbefore

/-- The mint that a block of a height still finds: the one that is scheduled, unless the
height is finished and was not noted. The greatest height is never finished. -/
def pending (height : UInt64) (past : List (Site × SiteStep)) : Option Mint :=
  if Unnoted height past ∧ height.toNat + 1 < UInt64.size then none else scheduled height past

/-- **As long as no note is refused**, what is scheduled is pending. -/
theorem pending_of_noted (c : Chain) {run : List SiteStep}
    (hnote : ∀ s o time, .produce s o time ∈ run → o .setLastBlock = none) (height : UInt64) :
    pending height (history step (idle c) run) = scheduled height (history step (idle c) run) :=
  if_neg fun h => not_unnoted c hnote height h.1

/-! ### The cache in line with the schedule -/

/-- **An attempt at a block** leaves the producer and the cache as they were; or it finishes
the next height in the cache, and either moves on to it or has its note refused. -/
lemma step_produce (p : Producer) (c : Chain) (s : Settings) (o : Outages) (time : Timestamp) :
    ∃ q d, step ⟨some p, c⟩ (.produce s o time) = ⟨some q, d⟩ ∧
      ((q = p ∧ d.cache = c.cache ∧ ∀ k, refusesNote k (⟨some p, c⟩, .produce s o time) = none) ∨
      ∃ height, p.nextHeight? = some height ∧ d.cache = c.cache.finish height ∧
        ((q = ⟨some (height, time)⟩ ∧
          ∀ k, refusesNote k (⟨some p, c⟩, .produce s o time) = none) ∨
        (q = p ∧ ∀ k, refusesNote k (⟨some p, c⟩, .produce s o time)
          = if k = height then some true else none))) := by
  cases hnext : p.nextHeight? with
  | none =>
      refine ⟨p, c, by simp only [step, produce_of_next_none hnext], .inl ⟨rfl, rfl, fun k => ?_⟩⟩
      simp [refusesNote, hnext]
  | some height =>
      have hbegun := c.beginBlock_finish s o (p.context height time)
      simp only [step, produce_of_next hnext, refusesNote, hnext, Option.some_inj]
      rcases hb : c.beginBlock s o (p.context height time) with ⟨r, d⟩
      rw [hb] at hbegun
      rcases hbegun with ⟨e, rfl, hcache⟩ | ⟨i, L, external, -, rfl, hcache⟩
      · refine ⟨p, d, rfl, .inl ⟨rfl, hcache, fun k => if_neg ?_⟩⟩
        rintro ⟨rfl, hok, -⟩
        rw [hb] at hok
        cases hok
      cases hnote : o .setLastBlock with
      | none => exact ⟨_, _, rfl, .inr ⟨height, rfl, hcache, .inl ⟨rfl, fun k => by simp⟩⟩⟩
      | some words =>
          -- the height is finished, and the producer goes on to attempt it
          refine ⟨p, d, rfl, .inr ⟨height, rfl, hcache, .inr ⟨rfl, fun k => ?_⟩⟩⟩
          by_cases hk : k = height
          · subst hk
            rw [if_pos rfl, if_pos ⟨rfl, by rw [hb]; rfl, rfl⟩]
          · rw [if_neg hk, if_neg fun h => hk h.1.symm]

/-- The cache of a producer holds just what is scheduled, from its floor on. The floor
stands just above the last block, or above the next one where that is finished and not
noted. -/
structure Attuned (past : List (Site × SiteStep)) (p : Producer) (cache : MintCache) : Prop where
  floor : cache.floor = p.floor ∨ ∃ height, p.nextHeight? = some height ∧
    Unnoted height past ∧ cache.floor = Word.next height
  closed : ∀ height, Unnoted height past → Word.next height ≤ cache.floor
  keeps : cache.Keeps fun k => scheduled k past

namespace Attuned

variable {past : List (Site × SiteStep)} {p : Producer} {cache : MintCache} {height : UInt64}

lemma floor_le_next (h : Attuned past p cache) (hnext : p.nextHeight? = some height) :
    cache.floor ≤ Word.next height := by
  rcases h.floor with hfloor | ⟨k, hk, -, hfloor⟩ <;> rw [hfloor]
  · refine UInt64.le_trans (floor_le_of_next hnext) (UInt64.le_iff_toNat_le.2 ?_)
    rw [Word.toNat_next]
    have := height.toNat_lt_size
    omega
  · obtain rfl := Option.some_inj.1 (hk.symm.trans hnext)
    exact UInt64.le_rfl

/-- The next height lies below the floor just where it is finished and not noted. -/
lemma lt_floor_iff (h : Attuned past p cache) (hnext : p.nextHeight? = some height) :
    height < cache.floor ↔ Unnoted height past ∧ height.toNat + 1 < UInt64.size := by
  rw [UInt64.lt_iff_toNat_lt]
  constructor
  · intro hbelow
    rcases h.floor with hfloor | ⟨k, hk, hunnoted, hfloor⟩ <;> rw [hfloor] at hbelow
    · have := UInt64.le_iff_toNat_le.1 (floor_le_of_next hnext)
      omega
    · obtain rfl := Option.some_inj.1 (hk.symm.trans hnext)
      rw [Word.toNat_next] at hbelow
      exact ⟨hunnoted, by omega⟩
  · rintro ⟨hunnoted, hheight⟩
    have hclosed := UInt64.le_iff_toNat_le.1 (h.closed height hunnoted)
    rw [Word.toNat_next] at hclosed
    omega

/-- What is pending for the next block is served. -/
lemma lookup_next (h : Attuned past p cache) (hnext : p.nextHeight? = some height) :
    cache.lookup height = pending height past := by
  rw [h.keeps.lookup, pending]
  simp only [h.lt_floor_iff hnext]

/-- A step of which the notes learn nothing leaves the floor where it has to be. -/
lemma concat (h : Attuned past p cache) {e : Site × SiteStep}
    (he : ∀ k, refusesNote k e = none) {cache' : MintCache} (hfloor : cache'.floor = cache.floor)
    (hkeeps : cache'.Keeps fun k => scheduled k (past ++ [e])) :
    Attuned (past ++ [e]) p cache' := by
  have hunnoted (k : UInt64) : Unnoted k (past ++ [e]) ↔ Unnoted k past :=
    unnoted_concat_of_none (he k)
  refine ⟨?_, fun k hk => ?_, hkeeps⟩
  · simpa only [hfloor, hunnoted] using h.floor
  · exact hfloor ▸ h.closed k ((hunnoted k).1 hk)

end Attuned

/-- A process that is started anew has nothing scheduled, and its floor stands just above
the last block. -/
lemma resume_attuned (past : List (Site × SiteStep)) (n : Site) (o : Outages)
    (addressPrefix : String) {p : Producer}
    (hp : (n.step (.resume o addressPrefix)).producer = some p) :
    Attuned (past ++ [(n, .resume o addressPrefix)]) p
      (n.step (.resume o addressPrefix)).chain.cache := by
  rcases n with ⟨producer, c⟩
  have hnoted (k : UInt64) :
      ¬ Unnoted k (past ++ [(⟨producer, c⟩, .resume o addressPrefix)]) := by
    rw [unnoted_concat]
    cases producer <;> simp [refusesNote]
  rcases hresume : resume { Chain.new addressPrefix with ledger := c.ledger } o
    with ⟨e | q, d⟩ <;> simp only [step, hresume] at hp ⊢ <;> cases hp
  rw [resume_ok hresume]
  rcases p with ⟨_ | ⟨height, time⟩⟩
  · refine ⟨.inl rfl, fun k hk => absurd hk (hnoted k), ?_⟩
    simp only [scheduled_resume]
    exact .new addressPrefix
  · refine ⟨.inl (MintCache.floor_markProcessed (UInt64.le_iff_toNat_le.2 (Nat.zero_le _))),
      fun k hk => absurd hk (hnoted k), ?_⟩
    simp only [scheduled_resume]
    exact (MintCache.Keeps.new addressPrefix).markProcessed height

/-- An attempt at a block moves the floor with the blocks that are finished, noted or not. -/
lemma produce_attuned {past : List (Site × SiteStep)} {p : Producer} {c : Chain}
    (hp : Attuned past p c.cache) (s : Settings) (o : Outages) (time : Timestamp) {q : Producer}
    (hq : (step ⟨some p, c⟩ (.produce s o time)).producer = some q) :
    Attuned (past ++ [(⟨some p, c⟩, .produce s o time)]) q
      (step ⟨some p, c⟩ (.produce s o time)).chain.cache := by
  have hkeeps : c.cache.Keeps
      fun k => scheduled k (past ++ [(⟨some p, c⟩, .produce s o time)]) := by
    simpa only [scheduled_produce] using hp.keeps
  obtain ⟨q', d, hstep, hends⟩ := step_produce p c s o time
  rw [hstep] at hq ⊢
  obtain rfl : q' = q := Option.some_inj.1 hq
  rcases hends with ⟨rfl, hcache, hquiet⟩ | ⟨height, hnext, hcache, hends⟩ <;> rw [hcache]
  · exact hp.concat hquiet rfl hkeeps
  have hfloor : (c.cache.finish height).floor = Word.next height :=
    MintCache.floor_markProcessed (hp.floor_le_next hnext)
  have hclosed (k : UInt64) (hk : Unnoted k past) :
      Word.next k ≤ (c.cache.finish height).floor :=
    UInt64.le_trans (hp.closed k hk) (hfloor ▸ hp.floor_le_next hnext)
  have hkept := (hkeeps.markProcessed height).prune
  rcases hends with ⟨rfl, hquiet⟩ | ⟨rfl, hrefused⟩
  · exact ⟨.inl hfloor, fun k hk => hclosed k ((unnoted_concat_of_none (hquiet k)).1 hk), hkept⟩
  -- the note is refused: the next height is the one that is finished
  refine ⟨.inr ⟨height, hnext, ?_, hfloor⟩, fun k hk => ?_, hkept⟩
  · rw [unnoted_concat, hrefused, if_pos rfl]
    exact .inl rfl
  · rw [unnoted_concat, hrefused] at hk
    by_cases hheight : k = height
    · rw [hheight, hfloor]
      exact UInt64.le_rfl
    · rw [if_neg hheight] at hk
      simp only [reduceCtorEq, true_and, false_or] at hk
      exact hclosed k hk

/-- **Every step** keeps the cache in line with the schedule. -/
lemma step_attuned {past : List (Site × SiteStep)} {n : Site}
    (h : ∀ p, n.producer = some p → Attuned past p n.chain.cache) (i : SiteStep) :
    ∀ p, (n.step i).producer = some p → Attuned (past ++ [(n, i)]) p (n.step i).chain.cache := by
  cases i with
  | merge s =>
      intro p hp
      refine (h p hp).concat (fun k => by rcases n with ⟨_ | _, _⟩ <;> rfl) rfl ?_
      simp only [scheduled_merge]
      exact (h p hp).keeps.takeIn UInt64.le_rfl _
  | resume o addressPrefix => exact fun p hp => resume_attuned past n o addressPrefix hp
  | produce s o time =>
      rcases n with ⟨_ | p, c⟩
      · rintro q ⟨⟩
      · exact fun q hq => produce_attuned (h p rfl) s o time hq

/-- **What a block reports** of the feed. Over any ledger and any run of merges, attempts
at blocks and restarts, a block that is produced reports no mint just where none is pending
for its height: where none is scheduled since the process was started, or where the height
was finished and its note refused. Where one is pending, the block skips just that one, or
applies it in full. As long as no note is refused, what is scheduled is pending. -/
theorem produce_reports (c : Chain) (run : List SiteStep) {p : Producer}
    (hp : (runAll step (idle c) run).producer = some p) {s : Settings} {o : Outages}
    {time : Timestamp} {outcome : BlockOutcome}
    (h : (p.produce (runAll step (idle c) run).chain s o time).1 = .ok outcome) :
    p.nextHeight? = some outcome.height ∧
    (match pending outcome.height (history step (idle c) run) with
    | none => outcome.external = .none
    | some m =>
        Reports (runAll step (idle c) run).chain.ledger outcome.height m outcome.external) ∧
    ((∀ s o time, .produce s o time ∈ run → o .setLastBlock = none) →
      pending outcome.height (history step (idle c) run)
        = scheduled outcome.height (history step (idle c) run)) := by
  have hattuned : ∀ p, (runAll step (idle c) run).producer = some p →
      Attuned (history step (idle c) run) p (runAll step (idle c) run).chain.cache :=
    history_induction (I := fun past n => ∀ p, n.producer = some p → Attuned past p n.chain.cache)
      (fun _ _ i _ h => step_attuned h i) (by rintro p ⟨⟩)
  replace hattuned := hattuned p hp
  generalize runAll step (idle c) run = n at h hattuned ⊢
  obtain ⟨height, hnext, -, hbegun, -⟩ := produce_ok (Prod.ext h rfl)
  obtain ⟨e, hfailed, -⟩ | ⟨i, L, external, -, hdone, -⟩ :=
    n.chain.beginBlock_finish s o (p.context height time)
  · cases hfailed.symm.trans hbegun
  obtain rfl := Except.ok.inj (hdone.symm.trans hbegun)
  exact ⟨hnext, hattuned.lookup_next hnext ▸ Chain.beginBlock_reports hbegun,
    fun hnote => pending_of_noted c hnote height⟩

/-- The first block of a new chain, with a hundred tokens in the feed for it. -/
theorem produce_reports_first :
    let run := [.resume .none "unigrid", .merge (Chain.sampleFeed 100)]
    let c : Chain := ⟨Chain.genesisLedger, .new "unigrid", .zero⟩
    (runAll step (idle c) run).producer = some ⟨none⟩ ∧
    (produce ⟨none⟩ (runAll step (idle c) run).chain Chain.sampleSettings .none .epoch).1
      = .ok Chain.firstOutcome ∧
    pending 1 (history step (idle c) run) = some ⟨Chain.sampleRecipient, 100, 1⟩ ∧
    Reports (runAll step (idle c) run).chain.ledger 1 ⟨Chain.sampleRecipient, 100, 1⟩
      Chain.firstOutcome.external := by
  have hp : (runAll step (idle ⟨Chain.genesisLedger, .new "unigrid", .zero⟩)
      [.resume .none "unigrid", .merge (Chain.sampleFeed 100)]).producer = some ⟨none⟩ := by
    decide +kernel
  have h : (produce ⟨none⟩ (runAll step (idle ⟨Chain.genesisLedger, .new "unigrid", .zero⟩)
      [.resume .none "unigrid", .merge (Chain.sampleFeed 100)]).chain
        Chain.sampleSettings .none .epoch).1 = .ok Chain.firstOutcome := by
    decide +kernel
  have hpending : pending 1 (history step (idle ⟨Chain.genesisLedger, .new "unigrid", .zero⟩)
      [.resume .none "unigrid", .merge (Chain.sampleFeed 100)])
        = some ⟨Chain.sampleRecipient, 100, 1⟩ := by
    decide +kernel
  have hreports := (produce_reports _ _ hp h).2.1
  rw [show Chain.firstOutcome.height = 1 from rfl, hpending] at hreports
  exact ⟨hp, h, hpending, hreports⟩

/-- On a new chain, the feed schedules a hundred tokens for the first block, which is begun
and finished, but its note is refused. The next attempt begins the first block again, and
reports no mint, though the feed has scheduled one since the process was started. -/
theorem refused_note_hides_mint :
    let run := [.resume .none "unigrid", .merge (Chain.sampleFeed 100),
      .produce Chain.sampleSettings (.only .setLastBlock) .epoch]
    let c : Chain := ⟨Chain.genesisLedger, .new "unigrid", .zero⟩
    (runAll step (idle c) run).producer = some ⟨none⟩ ∧
    scheduled 1 (history step (idle c) run) = some ⟨Chain.sampleRecipient, 100, 1⟩ ∧
    (produce ⟨none⟩ (runAll step (idle c) run).chain Chain.sampleSettings .none .epoch).1
      = .ok { Chain.firstOutcome with external := .none } ∧
    Chain.firstOutcome.height = 1 := by
  decide +kernel

end Site

end Producer

end Mintage
