import Mintage.Block.Producer
import Mintage.Proofs.Block.Scheduled

/-!
How often a height gets its subsidy. The producer notes a block once it is finished, so
a height is finished at most once; but a block that stops after its subsidy was handed
on keeps the subsidy, and the next attempt at the height issues another one.

* `Chain.beginBlock_sameLastBlock`: beginning a block leaves the note of the last block
  alone.
* `Producer.produce_cases`: the ways that producing a block can end.
* `Producer.Site.aborts_iff`: an attempt keeps its subsidy and still fails, with every
  call in order, just where the feed asks too much of the block.
* `Producer.Site.subsidies_eq`: over every run of blocks, snapshots and restarts, a
  height is finished at most once, and it gets one subsidy for that and one more for
  every attempt that stopped after handing it on.
* `Producer.Site.subsidy_issued_twice`: a run of two attempts at the first height that
  issues its subsidy twice.
-/

namespace Mintage

open StoreM

/-! ### The note of the last block -/

/-- A block writes nothing under the key of the last block. -/
lemma lastBlock_respects : BlockRespects (Ledger.SameEntry .lastBlock) :=
  .of_sameEntries (fun L m => L.bytes?_store_ne (w := .put .minter m) nofun) fun h => h _ trivial

/-- Beginning a block leaves the note of the last block alone. -/
lemma Chain.beginBlock_sameLastBlock (c : Chain) (s : Settings) (o : Outages) (ctx : BlockContext) :
    (c.beginBlock s o ctx).2.ledger.lastBlock? = c.ledger.lastBlock? :=
  Ledger.load?_of_sameEntry (c.beginBlock_within lastBlock_respects s o ctx)

namespace Producer

/-! ### One block -/

/-- The block that a producer begins next, at a height and a time. -/
def context (p : Producer) (height : UInt64) (time : Timestamp) : BlockContext :=
  ⟨height, time, p.last.map (·.2)⟩

/-- Without a next height nothing is begun. -/
lemma produce_of_next_none {p : Producer} (hnext : p.nextHeight? = none) (c : Chain) (s : Settings)
    (o : Outages) (time : Timestamp) : p.produce c s o time = (.error .crashed, p, c) := by
  rw [produce, hnext]

/-- The block at the next height is begun, and noted if that succeeds. -/
lemma produce_of_next {p : Producer} {height : UInt64} (hnext : p.nextHeight? = some height)
    (c : Chain) (s : Settings) (o : Outages) (time : Timestamp) :
    p.produce c s o time =
      match c.beginBlock s o (p.context height time) with
      | (.error e, d) => (.error e, p, d)
      | (.ok outcome, d) =>
          match o .setLastBlock with
          | some words => (.error (.failed (.store (.storage (.stated words)))), p, d)
          | none => (.ok outcome, ⟨some (height, time)⟩,
              { d with ledger := d.ledger.store (.put .lastBlock (height, Int64.ofInt time.secs)) })
    := by
  rw [produce, hnext]
  simp only [context]
  generalize c.beginBlock s o _ = begun
  rcases begun with ⟨e | outcome, d⟩
  · rfl
  · rcases put_cases (·.setLastBlock height (Int64.ofInt time.secs)) (fun _ => rfl)
      MintError.store o d.ledger with ⟨words, hnote, h⟩ | ⟨hnote, h⟩ <;>
      simp only [StoreM.setLastBlock, Chain.run_eq h, hnote]

/-- **Producing a block** stops because there is no next height, stops with the block,
stops with the block begun but not noted because that call is out of order, or notes it. -/
theorem produce_cases (p : Producer) (c : Chain) (s : Settings) (o : Outages) (time : Timestamp) :
    (p.nextHeight? = none ∧ p.produce c s o time = (.error .crashed, p, c)) ∨
    ∃ height, p.nextHeight? = some height ∧
      ((∃ e, (c.beginBlock s o (p.context height time)).1 = .error e ∧
        p.produce c s o time = (.error e, p, (c.beginBlock s o (p.context height time)).2)) ∨
      ∃ outcome, (c.beginBlock s o (p.context height time)).1 = .ok outcome ∧
        ((o .setLastBlock ≠ none ∧ ∃ e,
          p.produce c s o time = (.error e, p, (c.beginBlock s o (p.context height time)).2)) ∨
        ∃ d, d.ledger = (c.beginBlock s o (p.context height time)).2.ledger.store
            (.put .lastBlock (height, Int64.ofInt time.secs)) ∧
          p.produce c s o time = (.ok outcome, ⟨some (height, time)⟩, d))) := by
  cases hnext : p.nextHeight? with
  | none => exact .inl ⟨rfl, produce_of_next_none hnext c s o time⟩
  | some height =>
      refine .inr ⟨height, rfl, ?_⟩
      rw [produce_of_next hnext]
      generalize c.beginBlock s o (p.context height time) = begun
      rcases begun with ⟨e | outcome, b⟩
      · exact .inl ⟨e, rfl, rfl⟩
      · refine .inr ⟨outcome, rfl, ?_⟩
        cases o .setLastBlock with
        | some words => exact .inl ⟨nofun, _, rfl⟩
        | none => exact .inr ⟨_, rfl, rfl⟩

/-- A block that is produced is the one begun at the next height; it is remembered and
noted. -/
lemma produce_ok {p q : Producer} {c d : Chain} {s : Settings} {o : Outages} {time : Timestamp}
    {outcome : BlockOutcome} (h : p.produce c s o time = (.ok outcome, q, d)) :
    ∃ height, p.nextHeight? = some height ∧ q = ⟨some (height, time)⟩ ∧
      (c.beginBlock s o (p.context height time)).1 = .ok outcome ∧
      d.ledger.lastBlock? = .ok (some (height, Int64.ofInt time.secs)) := by
  rcases produce_cases p c s o time with
    ⟨-, h'⟩ | ⟨height, hnext, ⟨e, -, h'⟩ | ⟨begun, hbegun, ⟨-, e, h'⟩ | ⟨b, hb, h'⟩⟩⟩ <;>
    cases h'.symm.trans h
  exact ⟨height, hnext, rfl, hbegun, by rw [hb]; exact Ledger.load?_store_self _ .lastBlock _⟩

/-- A block that is not noted leaves producer and note as they were; one that is noted
is the one after the last. -/
lemma produce_effect (p : Producer) (c : Chain) (s : Settings) (o : Outages) (time : Timestamp) :
    (∃ e d, p.produce c s o time = (.error e, p, d) ∧ d.ledger.lastBlock? = c.ledger.lastBlock?) ∨
    ∃ height outcome d, p.nextHeight? = some height ∧
      p.produce c s o time = (.ok outcome, ⟨some (height, time)⟩, d) ∧
      d.ledger.lastBlock? = .ok (some (height, Int64.ofInt time.secs)) := by
  rcases produce_cases p c s o time with
    ⟨-, h⟩ | ⟨height, hnext, ⟨e, -, h⟩ | ⟨outcome, -, ⟨-, e, h⟩ | ⟨d, hd, h⟩⟩⟩
  · exact .inl ⟨_, c, h, rfl⟩
  · exact .inl ⟨e, _, h, c.beginBlock_sameLastBlock s o _⟩
  · exact .inl ⟨e, _, h, c.beginBlock_sameLastBlock s o _⟩
  · exact .inr ⟨height, outcome, d, hnext, h, by
      rw [hd]; exact Ledger.load?_store_self _ .lastBlock _⟩

/-- Going on from the last noted block changes no entry, and takes over the noted height. -/
lemma resume_cases (c : Chain) (o : Outages) :
    (∃ e d, resume c o = (.error e, d) ∧ d.ledger = c.ledger) ∨
    ∃ p d noted, resume c o = (.ok p, d) ∧ d.ledger = c.ledger ∧ c.ledger.lastBlock? = .ok noted ∧
      noted.map (·.1) = p.last.map (·.1) := by
  have hstored : (∃ e, storedBlock.runOn o c.ledger = (.error e, c.ledger)) ∨
      ∃ noted found, storedBlock.runOn o c.ledger = (.ok found, c.ledger) ∧
        c.ledger.lastBlock? = .ok noted ∧
        noted.map (·.1) = found.map (·.1) := by
    rw [storedBlock, StoreM.getLastBlock]
    rcases query_cases (·.getLastBlock) (fun _ => rfl) MintError.store o c.ledger with
      ⟨e, -, h⟩ | ⟨noted, hnoted, h⟩
    · exact .inl ⟨_, by rw [runOn_bind, h]⟩
    rw [runOn_bind_of_ok _ h]
    rcases noted with _ | ⟨height, secs⟩
    · exact .inr ⟨none, none, rfl, hnoted, rfl⟩
    · cases ht : Timestamp.ofUnix? secs.toInt 0 with
      | none => exact .inl ⟨_, by simp only [ht]; rfl⟩
      | some t => exact .inr ⟨_, some (height, t), by simp only [ht]; rfl, hnoted, rfl⟩
  rw [resume]
  rcases hstored with ⟨e, h⟩ | ⟨noted, found, h, hnoted, hsame⟩ <;> rw [Chain.run_eq h]
  · exact .inl ⟨e, _, rfl, rfl⟩
  · rcases found with _ | ⟨height, t⟩
    · exact .inr ⟨_, _, noted, rfl, rfl, hnoted, hsame⟩
    · exact .inr ⟨_, _, noted, rfl, rfl, hnoted, hsame⟩

/-! ### Runs -/

/-- A place where blocks are made: a chain, and the producer at work on it, if there is
one. -/
structure Site where
  producer : Option Producer
  chain : Chain

/-- What happens at a site: the next block is attempted, a snapshot of the feed comes
in, or the process starts anew with an empty cache. -/
inductive SiteStep where
  | produce (s : Settings) (o : Outages) (time : Timestamp)
  | merge (snapshot : Snapshot)
  | resume (o : Outages) (addressPrefix : String)

namespace Site

/-- A site before its process is started. -/
def idle (c : Chain) : Site := ⟨none, c⟩

/-- The site after a step, whether it succeeds or not. -/
def step (n : Site) : SiteStep → Site
  | .produce s o time =>
      match n.producer with
      | none => n
      | some p => ⟨some (p.produce n.chain s o time).2.1, (p.produce n.chain s o time).2.2⟩
  | .merge snapshot =>
      { n with chain := { n.chain with cache := (n.chain.cache.merge snapshot).1 } }
  | .resume o addressPrefix =>
      match resume { Chain.new addressPrefix with ledger := n.chain.ledger } o with
      | (.ok p, c) => ⟨some p, c⟩
      | (.error _, c) => ⟨none, c⟩

/-- Whether a step attempts the block of a height and hands its subsidy to the fee
collector. -/
def issues (height : UInt64) : Site × SiteStep → Bool
  | (⟨some p, c⟩, .produce s o time) =>
      p.nextHeight? = some height &&
        ((issueSubsidy s (p.context height time)).runOn o c.ledger).1.isOk
  | _ => false

/-- Whether a step finishes the block of a height. -/
def finishes (height : UInt64) : Site × SiteStep → Bool
  | (⟨some p, c⟩, .produce s o time) => p.nextHeight? = some height && (p.produce c s o time).1.isOk
  | _ => false

/-- Whether a step hands the subsidy of a height on and still returns an error. -/
def aborts (height : UInt64) (e : Site × SiteStep) : Bool :=
  issues height e && !finishes height e

/-- The producer remembers the height that the ledger notes as its last. -/
def InStep (n : Site) : Prop :=
  ∀ p, n.producer = some p →
    ∃ noted, n.chain.ledger.lastBlock? = .ok noted ∧ noted.map (·.1) = p.last.map (·.1)

/-- The ledger notes a height, or one above it, as its last. -/
def Noted (height : UInt64) (n : Site) : Prop :=
  ∃ last secs, n.chain.ledger.lastBlock? = .ok (some (last, secs)) ∧ height ≤ last

/-- A finished block has handed its subsidy on. -/
lemma issues_of_finishes {height : UInt64} {e : Site × SiteStep} (h : finishes height e = true) :
    issues height e = true := by
  rcases e with ⟨⟨_ | p, c⟩, ⟨s, o, time⟩ | _ | _⟩ <;> try cases h
  simp only [finishes, issues, Bool.and_eq_true, decide_eq_true_eq] at h ⊢
  refine ⟨h.1, ?_⟩
  rcases produce_cases p c s o time with ⟨hnone, -⟩ | ⟨k, hk, ⟨e, -, hp⟩ | ⟨outcome, hb, -⟩⟩
  · rw [hnone] at h
    cases h.1
  · rw [hp] at h
    cases h.2
  · obtain rfl := Option.some_inj.1 (hk.symm.trans h.1)
    rcases c.beginBlock_cases s o (p.context k time) with ⟨e, L, -, hends⟩ | ⟨i, L, hissue, -⟩
    · rw [hends.result] at hb
      cases hb
    · rw [hissue]
      rfl

/-- A finished block is the one after the last noted one, and is noted. -/
lemma finishes_cases {height : UInt64} {n : Site} {e : SiteStep}
    (h : finishes height (n, e) = true) :
    (∃ p, n.producer = some p ∧ p.nextHeight? = some height) ∧ Noted height (n.step e) := by
  rcases n with ⟨_ | p, c⟩ <;> rcases e with ⟨s, o, time⟩ | _ | _ <;> try cases h
  simp only [finishes, Bool.and_eq_true, decide_eq_true_eq] at h
  refine ⟨⟨p, rfl, h.1⟩, ?_⟩
  rcases produce_effect p c s o time with ⟨e, d, hp, -⟩ | ⟨k, outcome, d, hk, hp, hd⟩
  · rw [hp] at h
    cases h.2
  · obtain rfl := Option.some_inj.1 (hk.symm.trans h.1)
    refine ⟨k, Int64.ofInt time.secs, ?_, UInt64.le_refl k⟩
    show (p.produce c s o time).2.2.ledger.lastBlock? = _
    rw [hp, hd]

/-- Whatever happens, the producer stays in step with the ledger. -/
lemma step_inStep (n : Site) (e : SiteStep) (hn : n.InStep) : (n.step e).InStep := by
  rcases n with ⟨producer, c⟩
  cases e with
  | produce s o time =>
      rcases producer with _ | p
      · exact hn
      · rintro q ⟨⟩
        rcases produce_effect p c s o time with ⟨e, d, hp, hd⟩ | ⟨k, outcome, d, hk, hp, hd⟩ <;>
          simp only [step, hp, hd]
        · exact hn p rfl
        · exact ⟨_, rfl, rfl⟩
  | merge snapshot => exact hn
  | resume o addressPrefix =>
      rintro q hq
      rcases resume_cases { Chain.new addressPrefix with ledger := c.ledger } o with
        ⟨e, d, hp, hd⟩ | ⟨p, d, noted, hp, hd, hnoted, hsame⟩ <;> simp only [step, hp] at hq ⊢
      · cases hq
      · cases hq
        exact ⟨noted, by rw [hd]; exact hnoted, hsame⟩

/-- The next height lies above every noted one. -/
lemma not_noted_of_next {n : Site} (hn : n.InStep) {p : Producer} (hp : n.producer = some p)
    {height : UInt64} (hnext : p.nextHeight? = some height) : ¬ Noted height n := by
  rintro ⟨last, secs, hlast, hle⟩
  obtain ⟨noted, hnoted, hsame⟩ := hn p hp
  rw [hlast] at hnoted
  cases hnoted
  rw [nextHeight?] at hnext
  rcases hp : p.last with _ | ⟨k, t⟩
  · rw [hp] at hsame
    cases hsame
  · rw [hp] at hsame hnext
    obtain rfl : last = k := Option.some_inj.1 hsame
    have hheight := Word.ofNat?_eq_some_iff.1 hnext
    have := UInt64.le_iff_toNat_le.1 hle
    omega

/-- What is noted stays noted: the note only moves to higher blocks. -/
lemma step_noted (n : Site) (e : SiteStep) (hn : n.InStep) {height : UInt64} (h : Noted height n) :
    Noted height (n.step e) := by
  rcases n with ⟨producer, c⟩
  cases e with
  | produce s o time =>
      rcases producer with _ | p
      · exact h
      · rcases produce_effect p c s o time with ⟨e, d, hp, hd⟩ | ⟨k, outcome, d, hk, hp, hd⟩
        · simp only [Noted, step, hp, hd]
          exact h
        · refine ⟨k, Int64.ofInt time.secs, by simp only [step, hp, hd], ?_⟩
          -- the new block lies above all noted ones, so also above this height
          obtain ⟨last, secs, hlast, hle⟩ := h
          refine UInt64.not_lt.1 fun hlt => not_noted_of_next hn rfl hk ⟨last, secs, hlast, ?_⟩
          exact UInt64.le_trans (UInt64.le_of_lt hlt) hle
  | merge snapshot => exact h
  | resume o addressPrefix =>
      rcases resume_cases { Chain.new addressPrefix with ledger := c.ledger } o with
        ⟨e, d, hp, hd⟩ | ⟨p, d, noted, hp, hd, -, -⟩ <;> simp only [Noted, step, hp, hd] <;> exact h

/-- Over a run, every height is finished at most once. -/
lemma countP_finishes_le_one (c : Chain) (run : List SiteStep) (height : UInt64) :
    (history step (idle c) run).countP (finishes height) ≤ 1 := by
  refine (countP_history_le_one InStep (Noted height) step_inStep
    (fun n e hn h => step_noted n e hn h) (fun n e hn h => ?_) (fun n e _ h => (finishes_cases h).2)
    (by rintro p ⟨⟩) run).1
  obtain ⟨p, hp, hnext⟩ := (finishes_cases h).1
  exact not_noted_of_next hn hp hnext

/-- A subsidy is handed on by a block that is finished, or by an attempt that aborts. -/
lemma countP_issues_eq (l : List (Site × SiteStep)) (height : UInt64) :
    l.countP (issues height) = l.countP (finishes height) + l.countP (aborts height) := by
  have hfinished : (fun e => issues height e && finishes height e) = finishes height := by
    funext e
    cases hf : finishes height e with
    | false => exact Bool.and_false _
    | true => rw [issues_of_finishes hf, Bool.and_self]
  calc l.countP (issues height)
      = (l.filter (finishes height)).countP (issues height)
          + (l.filter fun e => !finishes height e).countP (issues height) :=
        List.countP_eq_countP_filter_add l (issues height) (finishes height)
    _ = l.countP (finishes height) + l.countP (aborts height) := by
        rw [List.countP_filter, List.countP_filter, hfinished]
        rfl

/-- Whatever happens, coins are conserved. -/
lemma step_conserves (n : Site) (e : SiteStep) :
    n.chain.ledger.Conserves (n.step e).chain.ledger := by
  rcases n with ⟨producer, c⟩
  cases e with
  | produce s o time =>
      rcases producer with _ | p
      · exact .refl _
      · have hblock (ctx : BlockContext) : c.ledger.Conserves (c.beginBlock s o ctx).2.ledger :=
          c.beginBlock_within Ledger.block_conserves s o ctx
        simp only [step]
        rcases produce_cases p c s o time with
          ⟨-, h⟩ | ⟨height, -, ⟨e, -, h⟩ | ⟨outcome, -, ⟨-, e, h⟩ | ⟨d, hd, h⟩⟩⟩ <;>
          rw [h]
        · exact .refl _
        · exact hblock _
        · exact hblock _
        · have hnote := Ledger.store_conserves (c.beginBlock s o (p.context height time)).2.ledger
            (w := .put .lastBlock (height, Int64.ofInt time.secs)) ⟨_, rfl⟩ nofun
          exact (hblock _).trans (hd ▸ hnote)
  | merge snapshot => exact .refl _
  | resume o addressPrefix =>
      simp only [step]
      rcases resume_cases { Chain.new addressPrefix with ledger := c.ledger } o with
        ⟨e, d, hp, hd⟩ | ⟨p, d, noted, hp, hd, -, -⟩ <;>
          rw [hp] <;> simp only [hd] <;> exact .refl _

/-- With every call in order, a block that is begun without an error is noted. -/
lemma produce_isOk {p : Producer} {c : Chain} {s : Settings} {time : Timestamp} {height : UInt64}
    (hnext : p.nextHeight? = some height) :
    (p.produce c s .none time).1.isOk = (c.beginBlock s .none (p.context height time)).1.isOk := by
  rcases produce_cases p c s .none time with
    ⟨hnone, -⟩ | ⟨height', hnext', ⟨e, hb, h⟩ | ⟨outcome, hb, ⟨ho, -⟩ | ⟨d, -, h⟩⟩⟩
  · rw [hnext] at hnone
    cases hnone
  all_goals
    obtain rfl : height = height' := Option.some_inj.1 (hnext.symm.trans hnext')
  · rw [h, hb]
  · exact absurd rfl ho
  · rw [h, hb]

/-- **Which attempts abort.** With every call in order, over a sound ledger, an attempt
at a height hands the subsidy on and still returns an error exactly where the feed asks
too much of the block. -/
theorem aborts_iff {p : Producer} {c : Chain} {s : Settings} {time : Timestamp} {height : UInt64}
    (hc : c.ledger.Sound) :
    aborts height (⟨some p, c⟩, .produce s .none time) = true ↔
      p.nextHeight? = some height ∧ ∃ i L,
        (issueSubsidy s (p.context height time)).runOn .none c.ledger = (.ok i, L) ∧
          c.Overreaches (p.context height time) i L := by
  by_cases hnext : p.nextHeight? = some height
  swap
  · simp [aborts, issues, hnext]
  rcases hissue : (issueSubsidy s (p.context height time)).runOn .none c.ledger with ⟨e | i, L⟩
  · simp [aborts, issues, hissue, Except.isOk, Except.toBool]
  have hfinished := Chain.beginBlock_isOk_iff (issueSubsidy_sound hc hissue) hissue
  rw [← produce_isOk hnext] at hfinished
  have hissued : issues height (⟨some p, c⟩, .produce s .none time) = true := by
    simp only [issues, hnext, hissue, decide_true, Bool.true_and]
    rfl
  rw [aborts, hissued, Bool.true_and, finishes, hnext, decide_eq_true rfl, Bool.true_and,
    Bool.not_eq_true', ← Bool.not_eq_true, hfinished, not_not]
  exact ⟨fun h => ⟨rfl, i, L, rfl, h⟩, fun ⟨_, _, _, h, hmuch⟩ => by cases h; exact hmuch⟩

/-- **How often a height gets its subsidy.** Over every run on a ledger that operations
and blocks lead to, a height is finished at most once; it gets its subsidy once for
that, and once more for every attempt that handed the subsidy on and then stopped; and
where every call is in order, such an attempt stops just because the feed asks too much
of the block. -/
theorem subsidies_eq (start : List (LedgerStep × Outages)) (cache : MintCache) (metrics : Metrics)
    (run : List SiteStep) (height : UInt64) :
    (history step (idle ⟨Ledger.reached start, cache, metrics⟩) run).countP (finishes height) ≤ 1 ∧
    (history step (idle ⟨Ledger.reached start, cache, metrics⟩) run).countP (issues height)
      = (history step (idle ⟨Ledger.reached start, cache, metrics⟩) run).countP (finishes height)
        + (history step (idle ⟨Ledger.reached start, cache, metrics⟩) run).countP (aborts height) ∧
    ∀ p c s time,
      (⟨some p, c⟩, .produce s .none time)
        ∈ history step (idle ⟨Ledger.reached start, cache, metrics⟩) run →
        (aborts height (⟨some p, c⟩, .produce s .none time) = true ↔
          p.nextHeight? = some height ∧ ∃ i L,
            (issueSubsidy s (p.context height time)).runOn .none c.ledger = (.ok i, L) ∧
              c.Overreaches (p.context height time) i L) := by
  refine ⟨countP_finishes_le_one _ run height, countP_issues_eq _ height, fun p c s time hmem => ?_⟩
  have hsound : c.ledger.Sound :=
    history_invariant (I := fun n : Site => n.chain.ledger.Sound)
      (fun n e hn => (step_conserves n e).sound hn) (Ledger.reached_sound start) hmem
  exact aborts_iff hsound

/-- A height can get its subsidy twice: on a new chain, the feed schedules more for the
first block than the supply can take, and the block is attempted, fails after its
subsidy was handed on, and is attempted again. -/
theorem subsidy_issued_twice :
    (history step (idle ⟨Chain.genesisLedger, .new "unigrid", .zero⟩)
      [.resume .none "unigrid", .merge (Chain.sampleFeed 184467440737),
        .produce Chain.sampleSettings .none .epoch,
        .produce Chain.sampleSettings .none .epoch]).countP (issues 1)
      = 2 := by
  decide +kernel

end Site

end Producer

end Mintage
