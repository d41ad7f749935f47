import Mintage.Proofs.Block.Effect
import Mintage.Proofs.Block.Producer
import Mintage.Proofs.Schedule.Cache

/-!
A producer that goes on from the ledger, next to the one that kept running. The ledger
notes the last block with its time cut to whole seconds, and nothing else that a producer
knows is lost.

* `Timestamp.wholeSecond`: a time as the ledger gives it back.
* `issueSubsidy_previous`: the time of the block before goes into the subsidy, and into
  nothing else.
* `Chain.Alike`: chains that the blocks above a height cannot tell apart.
* `Producer.produce_twin`: what a producer does on one of two such chains, its twin does
  on the other.
* `Producer.resume_exact`: the next block is begun with the time of the last one cut; all
  goes on as before just where that block has the same subsidy for both times.
* `Producer.resume_invisible`: a last block at a whole second leaves no difference.
* `Producer.resumed_subsidy_differs`: two blocks at the same half of a second, with a
  restart between them.
-/

namespace Mintage

open StoreM

/-! ### Whole seconds -/

namespace Timestamp

/-- The second in which a point lies. -/
def wholeSecond (t : Timestamp) : Timestamp :=
  ⟨t.secs, 0, t.first_le, t.le_last, Nat.lt_of_le_of_lt (Nat.zero_le _) t.nanos_lt,
    fun h => absurd h (Nat.not_succ_le_zero _)⟩

lemma wholeSecond_eq_self {t : Timestamp} (h : t.nanos = 0) : t.wholeSecond = t := by
  cases t
  cases h
  rfl

/-- Seconds that are noted are read back as the whole second. -/
lemma ofUnix?_noted (t : Timestamp) :
    ofUnix? (Int64.ofInt t.secs).toInt 0 = some t.wholeSecond := by
  have hfirst := t.first_le
  have hlast := t.le_last
  rw [firstSecond] at hfirst
  rw [lastSecond] at hlast
  have hsecs : (Int64.ofInt t.secs).toInt = t.secs :=
    Int64.toInt_ofInt_of_le (by omega) (by omega)
  rw [hsecs, ofUnix?, dif_pos t.first_le, dif_pos t.le_last, dif_pos (by decide),
    dif_pos fun h => absurd h (by decide)]
  rfl

end Timestamp

/-! ### The time of the block before -/

/-- **The time of the block before** goes into the subsidy and nothing else: where it
makes no difference there, the subsidy is issued in the same way. -/
theorem issueSubsidy_previous (s : Settings) (ctx : BlockContext) (previous : Option Timestamp)
    (o : Outages) {L : Ledger}
    (h : ∀ p, L.params? = .ok (some p) →
      provision p ctx.height ctx.time (previous.getD ctx.time)
        = provision p ctx.height ctx.time (ctx.previous.getD ctx.time)) :
    (issueSubsidy s { ctx with previous := previous }).runOn o L
      = (issueSubsidy s ctx).runOn o L := by
  have hmint : (mintSubsidy s { ctx with previous := previous }).runOn o L
      = (mintSubsidy s ctx).runOn o L := by
    rw [mintSubsidy, mintSubsidy, runOn_bind, runOn_bind]
    rcases params_cases o L with ⟨e, hrun⟩ | ⟨p, hp, -, hrun⟩ <;> rw [hrun]
    have hcompute (m : Minter) :
        Issue.compute s { ctx with previous := previous } p (m.syncWith p)
          = Issue.compute s ctx p (m.syncWith p) := by
      have hprovision : (m.syncWith p).blockProvision p ctx.height ctx.time
            (previous.getD ctx.time)
          = (m.syncWith p).blockProvision p ctx.height ctx.time
              (ctx.previous.getD ctx.time) := h p hp
      simp only [Issue.compute, hprovision]
    simp only [hcompute]
  rw [issueSubsidy, issueSubsidy, runOn_bind, runOn_bind, hmint]

/-! ### Chains that look alike -/

/-- A finished height is no longer served, and cleaning changes nothing for the others. -/
lemma MintCache.lookup_finish (cache : MintCache) (height k : UInt64) :
    (cache.finish height).lookup k
      = if k.toNat + 1 < UInt64.size ∧ k ≤ height then none else cache.lookup k :=
  (lookup_prune _ k).trans (cache.lookup_markProcessed height k)

/-- Two chains that the blocks above a height cannot tell apart. -/
structure Chain.Alike (last : UInt64) (c d : Chain) : Prop where
  ledger : c.ledger = d.ledger
  addressPrefix : c.cache.addressPrefix = d.cache.addressPrefix
  lookup : ∀ k, last < k → c.cache.lookup k = d.cache.lookup k

namespace Chain

lemma Alike.mono {last height : UInt64} {c d : Chain} (h : c.Alike last d) (hle : last ≤ height) :
    c.Alike height d :=
  ⟨h.ledger, h.addressPrefix, fun k hk => h.lookup k (UInt64.lt_of_le_of_lt hle hk)⟩

/-- **The block that comes next** on two chains that look alike ends in the same way, and
they go on looking alike, if it issues its subsidy in the same way. -/
theorem beginBlock_alike {last : UInt64} {c d : Chain} (h : c.Alike last d) {s : Settings}
    {o : Outages} (ctx : BlockContext) (previous : Option Timestamp) (hlast : last < ctx.height)
    (hissue : (issueSubsidy s { ctx with previous := previous }).runOn o d.ledger
      = (issueSubsidy s ctx).runOn o d.ledger) :
    (c.beginBlock s o { ctx with previous := previous }).1 = (d.beginBlock s o ctx).1 ∧
      (c.beginBlock s o { ctx with previous := previous }).2.Alike last
        (d.beginBlock s o ctx).2 := by
  rcases c with ⟨L, cache, metrics⟩
  rcases d with ⟨L', cache', metrics'⟩
  obtain ⟨hledger, hprefix, hlookup⟩ := h
  simp only at hledger hprefix hlookup hissue
  subst hledger
  -- both blocks leave their caches, or both finish the height in them
  have hkept : ∀ k, last < k →
      (cache.finish ctx.height).lookup k = (cache'.finish ctx.height).lookup k := by
    intro k hk
    rw [MintCache.lookup_finish, MintCache.lookup_finish, hlookup k hk]
  replace hissue : issueSubsidy s { ctx with previous := previous } o.store L
      = issueSubsidy s ctx o.store L := hissue
  simp only [beginBlock, BlockStore.beginBlock, hissue, hlookup _ hlast, hprefix]
  rcases issueSubsidy s ctx o.store L with ⟨e | i, y⟩
  · exact ⟨rfl, rfl, hprefix, hlookup⟩
  cases cache'.lookup ctx.height with
  | none => exact ⟨rfl, rfl, hprefix, hkept⟩
  | some m =>
      have happly : applyScheduled { ctx with previous := previous } i.params i.minted
          cache'.addressPrefix m o.store y
        = applyScheduled ctx i.params i.minted cache'.addressPrefix m o.store y := rfl
      simp only [happly]
      rcases applyScheduled ctx i.params i.minted cache'.addressPrefix m o.store y with
        ⟨(e | _) | ⟨record, transition⟩, z⟩
      · dsimp only
        cases e.isFatal
        · exact ⟨rfl, rfl, hprefix, hkept⟩
        · exact ⟨rfl, rfl, hprefix, hlookup⟩
      · exact ⟨rfl, rfl, hprefix, hlookup⟩
      · exact ⟨rfl, rfl, hprefix, hkept⟩

/-- A finished block reports its height, and the subsidy that the parameters ask for. -/
lemma beginBlock_provision {c : Chain} {s : Settings} {o : Outages} {ctx : BlockContext}
    {outcome : BlockOutcome} (h : (c.beginBlock s o ctx).1 = .ok outcome) :
    outcome.height = ctx.height ∧ ∃ p, c.ledger.params? = .ok (some p) ∧
      outcome.provision = provision p ctx.height ctx.time (ctx.previous.getD ctx.time) := by
  obtain ⟨e, hfailed, -⟩ | ⟨i, L, external, hissue, hdone, -⟩ := c.beginBlock_finish s o ctx
  · cases hfailed.symm.trans h
  obtain rfl := Except.ok.inj (hdone.symm.trans h)
  have hissued := issueSubsidy_issued hissue
  exact ⟨rfl, i.params, hissued.params, hissued.amount⟩

end Chain

namespace Producer

/-! ### Going on from the ledger -/

/-- A producer as it goes on from the ledger, with the time of its last block cut. -/
def cut (p : Producer) : Producer :=
  ⟨p.last.map fun b => (b.1, b.2.wholeSecond)⟩

lemma nextHeight?_cut (p : Producer) : p.cut.nextHeight? = p.nextHeight? := by
  rcases p with ⟨_ | b⟩ <;> rfl

/-- Going on from a noted block gives its height, and its time cut to the second. -/
lemma resume_noted {c : Chain} {height : UInt64} {time : Timestamp}
    (h : c.ledger.lastBlock? = .ok (some (height, Int64.ofInt time.secs))) :
    resume c .none = (.ok (cut ⟨some (height, time)⟩),
      { c with cache := c.cache.markProcessed height }) := by
  have hstored : storedBlock.runOn .none c.ledger
      = (.ok (some (height, time.wholeSecond)), c.ledger) := by
    rw [storedBlock, StoreM.getLastBlock,
      runOn_bind_of_ok _ (runOn_query_of_ok (fun _ => rfl) rfl h)]
    simp only [Timestamp.ofUnix?_noted]
    rfl
  rw [resume, Chain.run_eq hstored]
  rfl

lemma last_lt_next {p : Producer} {last height : UInt64} {time : Timestamp}
    (hlast : p.last = some (last, time)) (hnext : p.nextHeight? = some height) : last < height := by
  rw [nextHeight?, hlast] at hnext
  have := Word.ofNat?_eq_some_iff.1 hnext
  rw [UInt64.lt_iff_toNat_lt]
  omega

/-! ### Attempts -/

section Attempts

variable (s : Settings)

/-- A producer and its chain after an attempt at the next block at a time, with some calls
out of order. -/
def attempt (n : Producer × Chain) (a : Outages × Timestamp) : Producer × Chain :=
  (n.1.produce n.2 s a.1 a.2).2

/-- What an attempt returns. -/
def report (e : (Producer × Chain) × (Outages × Timestamp)) :
    Except (Stop MintError) BlockOutcome :=
  (e.1.1.produce e.1.2 s e.2.1 e.2.2).1

/-- The block that an attempt begins. -/
def begun (e : (Producer × Chain) × (Outages × Timestamp)) : Option BlockContext :=
  e.1.1.nextHeight?.map fun height => e.1.1.context height e.2.2

/-- The reports of attempts, one after the other. -/
def reports (n : Producer × Chain) (l : List (Outages × Timestamp)) :
    List (Except (Stop MintError) BlockOutcome) :=
  (history (attempt s) n l).map (report s)

/-- The blocks that attempts begin, one after the other. -/
def begins (n : Producer × Chain) (l : List (Outages × Timestamp)) : List (Option BlockContext) :=
  (history (attempt s) n l).map begun

end Attempts

variable {s : Settings} {o : Outages} {time : Timestamp}

/-- **Two producers at the same height**, on chains that look alike, end their attempts in
the same way, if these issue the subsidy in the same way. -/
theorem produce_alike (s : Settings) (o : Outages) (time : Timestamp) {p q : Producer}
    {c d : Chain} {last height : UInt64} (h : c.Alike last d)
    (hp : p.nextHeight? = some height) (hq : q.nextHeight? = some height) (hlast : last < height)
    (hissue : (issueSubsidy s (p.context height time)).runOn o d.ledger
      = (issueSubsidy s (q.context height time)).runOn o d.ledger) :
    ∃ c' d', c'.Alike last d' ∧
      ((∃ e, p.produce c s o time = (.error e, p, c') ∧
        q.produce d s o time = (.error e, q, d')) ∨
      ∃ outcome, p.produce c s o time = (.ok outcome, ⟨some (height, time)⟩, c') ∧
        q.produce d s o time = (.ok outcome, ⟨some (height, time)⟩, d')) := by
  have hcontext : p.context height time
      = { q.context height time with previous := p.last.map (·.2) } := rfl
  rw [hcontext] at hissue
  obtain ⟨hresult, hafter⟩ := Chain.beginBlock_alike h (q.context height time) _ hlast hissue
  rw [← hcontext] at hresult hafter
  rw [produce_of_next hp, produce_of_next hq]
  generalize c.beginBlock s o (p.context height time) = b at hresult hafter ⊢
  generalize d.beginBlock s o (q.context height time) = b' at hresult hafter ⊢
  rcases b with ⟨r, c'⟩
  rcases b' with ⟨r', d'⟩
  cases hresult
  cases r with
  | error e => exact ⟨c', d', hafter, .inl ⟨e, rfl, rfl⟩⟩
  | ok outcome =>
      cases o .setLastBlock with
      | some words => exact ⟨c', d', hafter, .inl ⟨_, rfl, rfl⟩⟩
      | none =>
          let note (L : Ledger) := L.store (.put .lastBlock (height, Int64.ofInt time.secs))
          refine ⟨{ c' with ledger := note c'.ledger }, { d' with ledger := note d'.ledger }, ?_,
            .inr ⟨outcome, rfl, rfl⟩⟩
          exact ⟨congrArg note hafter.ledger, hafter.addressPrefix, hafter.lookup⟩

/-- The same producer, on two chains that it cannot tell apart. -/
def Twins (n m : Producer × Chain) : Prop :=
  n.1 = m.1 ∧ ∃ b, n.1.last = some b ∧ n.2.Alike b.1 m.2

/-- **What a producer does** on the one chain, its twin does on the other. -/
theorem produce_twin {n m : Producer × Chain} (h : Twins n m) (a : Outages × Timestamp) :
    (begun (n, a), report s (n, a)) = (begun (m, a), report s (m, a)) ∧
      Twins (attempt s n a) (attempt s m a) := by
  rcases n with ⟨p, c⟩
  rcases m with ⟨q, d⟩
  obtain ⟨rfl, ⟨last, t⟩, hlast, halike⟩ := h
  simp only [begun, report, attempt]
  cases hnext : p.nextHeight? with
  | none =>
      rw [produce_of_next_none hnext, produce_of_next_none hnext]
      exact ⟨rfl, rfl, _, hlast, halike⟩
  | some height =>
      have hlt := last_lt_next hlast hnext
      obtain ⟨c', d', hafter, ⟨e, hc, hd⟩ | ⟨outcome, hc, hd⟩⟩ :=
        produce_alike s a.1 a.2 halike hnext hnext hlt rfl <;>
        rw [hc, hd]
      · exact ⟨rfl, rfl, _, hlast, hafter⟩
      · exact ⟨rfl, rfl, _, rfl, hafter.mono (UInt64.le_of_lt hlt)⟩

/-- Twins begin the same blocks, report the same and leave the same ledger, whatever is
attempted. -/
lemma attempts_twin {n m : Producer × Chain} (h : Twins n m) (l : List (Outages × Timestamp)) :
    begins s n l = begins s m l ∧ reports s n l = reports s m l ∧
      (runAll (attempt s) n l).2.ledger = (runAll (attempt s) m l).2.ledger := by
  have hlooks : (history (attempt s) n l).map (fun e => (begun e, report s e))
        = (history (attempt s) m l).map (fun e => (begun e, report s e)) ∧
      Twins (runAll (attempt s) n l) (runAll (attempt s) m l) :=
    history_simulation (R := Twins) (fun _ _ a h => produce_twin h a) h l
  obtain ⟨hseen, -, b, -, halike⟩ := hlooks
  have hbegins := congrArg (List.map Prod.fst) hseen
  have hreports := congrArg (List.map Prod.snd) hseen
  rw [List.map_map, List.map_map] at hbegins hreports
  exact ⟨hbegins, hreports, halike.ledger⟩

/-- An attempt that succeeds is at the next block, remembers and notes it, and reports the
subsidy that the parameters ask for. -/
lemma attempt_of_ok {n : Producer × Chain} {a : Outages × Timestamp} {outcome : BlockOutcome}
    (h : report s (n, a) = .ok outcome) :
    n.1.nextHeight? = some outcome.height ∧
    (attempt s n a).1 = ⟨some (outcome.height, a.2)⟩ ∧
    (attempt s n a).2.ledger.lastBlock? = .ok (some (outcome.height, Int64.ofInt a.2.secs)) ∧
    ∃ p, n.2.ledger.params? = .ok (some p) ∧
      outcome.provision
        = provision p outcome.height a.2 ((n.1.last.map (·.2)).getD a.2) := by
  obtain ⟨height, hnext, hlast, hbegun, hnoted⟩ := produce_ok (Prod.ext h rfl)
  obtain ⟨rfl, hprovision⟩ := Chain.beginBlock_provision hbegun
  exact ⟨hnext, hlast, hnoted, hprovision⟩

lemma exists_ok_of_isOk {ε α : Type} {r : Except ε α} (h : r.isOk) : ∃ a, r = .ok a := by
  cases r with
  | error e => cases h
  | ok a => exact ⟨a, rfl⟩

/-- A producer whose attempts succeed begins the same blocks on any chain. -/
lemma begins_of_isOk {n m : Producer × Chain} (hsame : n.1 = m.1) {l : List (Outages × Timestamp)}
    (hn : ∀ r ∈ reports s n l, r.isOk) (hm : ∀ r ∈ reports s m l, r.isOk) :
    begins s n l = begins s m l := by
  induction l generalizing n m with
  | nil => rfl
  | cons a l ih =>
      obtain ⟨_, hreport⟩ := exists_ok_of_isOk (hn _ (List.mem_cons_self ..))
      obtain ⟨_, hreport'⟩ := exists_ok_of_isOk (hm _ (List.mem_cons_self ..))
      obtain ⟨hnext, hlast, -, -⟩ := attempt_of_ok hreport
      obtain ⟨hnext', hlast', -, -⟩ := attempt_of_ok hreport'
      rw [hsame] at hnext
      rw [← Option.some_inj.1 (hnext.symm.trans hnext')] at hlast'
      have hrest := ih (hlast.trans hlast'.symm) (fun r hr => hn r (List.mem_cons_of_mem _ hr))
        fun r hr => hm r (List.mem_cons_of_mem _ hr)
      have hfirst : begun (n, a) = begun (m, a) := by
        rw [begun, begun, hsame]
      exact List.cons_eq_cons.2 ⟨hfirst, hrest⟩

/-! ### After a restart -/

/-- How a producer that goes on from the ledger compares with the one that kept running,
over the blocks that they attempt. -/
structure Compared (s : Settings) (time : Timestamp) (kept resumed : Producer × Chain)
    (first : Outages × Timestamp) (later : List (Outages × Timestamp)) (p : Params)
    (height : UInt64) : Prop where
  params : kept.2.ledger.params? = .ok (some p)
  kept_begun : begun (kept, first) = some ⟨height, first.2, some time⟩
  /-- The next block is the same but for the time of the block before. -/
  resumed_begun : begun (resumed, first) = some ⟨height, first.2, some time.wholeSecond⟩
  /-- The blocks after that are the same, as long as attempts succeed. -/
  begins : (∀ r ∈ Producer.reports s resumed (first :: later), r.isOk) →
    Producer.begins s (attempt s resumed first) later
      = Producer.begins s (attempt s kept first) later
  /-- What is reported is the same just where the next block has the same subsidy. -/
  reports : Producer.reports s resumed (first :: later) = Producer.reports s kept (first :: later) ↔
    provision p height first.2 time.wholeSecond = provision p height first.2 time
  ledger : provision p height first.2 time.wholeSecond = provision p height first.2 time →
    (runAll (attempt s) resumed (first :: later)).2.ledger
      = (runAll (attempt s) kept (first :: later)).2.ledger

/-- Marking the noted height in a cache that holds the same mints for the blocks to come
leaves nothing to tell the chains apart. -/
lemma alike_resumed {d : Chain} {cache : MintCache} {last : UInt64}
    (hstart : cache.addressPrefix = d.cache.addressPrefix)
    (hcache : ∀ k, last < k → cache.lookup k = d.cache.lookup k) (metrics : Metrics) :
    Chain.Alike last ⟨d.ledger, cache.markProcessed last, metrics⟩ d := by
  refine ⟨rfl, hstart, fun k hk => ?_⟩
  rw [MintCache.lookup_markProcessed, if_neg fun h => UInt64.not_lt.2 h.2 hk]
  exact hcache k hk

/-- Where the cut makes no difference to the subsidy of the next block, the two are twins
from then on. -/
lemma attempt_cut {q : Producer} {c d : Chain} {last : UInt64} {a : Outages × Timestamp}
    {outcome : BlockOutcome} {p : Params} (hlast : q.last = some (last, time)) (h : c.Alike last d)
    (hok : report s ((q, d), a) = .ok outcome) (hp : d.ledger.params? = .ok (some p))
    (hsame : provision p outcome.height a.2 time.wholeSecond
      = provision p outcome.height a.2 time) :
    report s ((q.cut, c), a) = .ok outcome ∧
      Twins (attempt s (q.cut, c) a) (attempt s (q, d) a) := by
  obtain ⟨hnext, -⟩ := attempt_of_ok hok
  obtain rfl : q = ⟨some (last, time)⟩ := congrArg Producer.mk hlast
  have hissue := issueSubsidy_previous s ⟨outcome.height, a.2, some time⟩ (some time.wholeSecond)
    a.1 (L := d.ledger) fun p' hp' => by cases hp.symm.trans hp'; exact hsame
  have hlt := last_lt_next rfl hnext
  obtain ⟨c', d', hafter, ⟨e, hc, hd⟩ | ⟨outcome', hc, hd⟩⟩ :=
    produce_alike s a.1 a.2 (p := cut ⟨some (last, time)⟩) h hnext hnext hlt hissue
  · cases (congrArg Prod.fst hd).symm.trans hok
  · obtain rfl := Except.ok.inj ((congrArg Prod.fst hd).symm.trans hok)
    refine ⟨congrArg Prod.fst hc, ?_⟩
    rw [attempt, attempt, hc, hd]
    exact ⟨rfl, _, rfl, hafter.mono (UInt64.le_of_lt hlt)⟩

/-- **After a restart** over the ledger of a produced block, with the same mints for the
blocks to come, going on succeeds. As long as the producer that kept running succeeds, the
next block is begun alike, but for the time of the block before, and the reports and the
ledger are the same just where its subsidy is. -/
theorem resume_exact {n : Producer × Chain} {a : Outages × Timestamp} {outcome : BlockOutcome}
    (h : report s (n, a) = .ok outcome) (cache : MintCache) (metrics : Metrics)
    (hstart : cache.addressPrefix = (attempt s n a).2.cache.addressPrefix)
    (hcache : ∀ k, outcome.height < k → cache.lookup k = (attempt s n a).2.cache.lookup k) :
    let kept := attempt s n a
    let resumed := (kept.1.cut, ⟨kept.2.ledger, cache.markProcessed outcome.height, metrics⟩)
    resume ⟨kept.2.ledger, cache, metrics⟩ .none = (.ok resumed.1, resumed.2) ∧
    ∀ first later, (∀ r ∈ reports s kept (first :: later), r.isOk) →
      ∃ p height, Compared s a.2 kept resumed first later p height := by
  intro kept resumed
  obtain ⟨-, hkept, hnoted, -⟩ := attempt_of_ok h
  have hlast : kept.1.last = some (outcome.height, a.2) := congrArg Producer.last hkept
  have hcut : resumed.1.last = some (outcome.height, a.2.wholeSecond) := by
    simp only [resumed, cut, hlast, Option.map_some]
  have hresume := resume_noted (c := ⟨kept.2.ledger, cache, metrics⟩) hnoted
  rw [← hkept] at hresume
  refine ⟨hresume, fun first later hok => ?_⟩
  obtain ⟨next, hreport⟩ := exists_ok_of_isOk (hok _ (List.mem_cons_self ..))
  have hrest : ∀ r ∈ reports s (attempt s kept first) later, r.isOk :=
    fun r hr => hok r (List.mem_cons_of_mem _ hr)
  obtain ⟨hnext, hafter, -, p, hp, hprovision⟩ := attempt_of_ok hreport
  have hnextcut : resumed.1.nextHeight? = some next.height := (nextHeight?_cut _).trans hnext
  have htwins := attempt_cut hlast (alike_resumed hstart hcache metrics) hreport hp
  refine ⟨p, next.height, hp, ?_, ?_, fun hresumedok => ?_, ⟨fun hreports => ?_, fun hsame => ?_⟩,
    fun hsame => ?_⟩
  · rw [begun, hnext, Option.map_some, context, hlast]
    rfl
  · rw [begun, hnextcut, Option.map_some, context, hcut]
    rfl
  · obtain ⟨_, hreport'⟩ := exists_ok_of_isOk (hresumedok _ (List.mem_cons_self ..))
    obtain ⟨hnext', hafter', -⟩ := attempt_of_ok hreport'
    rw [← Option.some_inj.1 (hnextcut.symm.trans hnext')] at hafter'
    exact begins_of_isOk (hafter'.trans hafter.symm)
      (fun r hr => hresumedok r (List.mem_cons_of_mem _ hr)) hrest
  · have hreport' : report s (resumed, first) = .ok next :=
      (List.cons_eq_cons.1 hreports).1.trans hreport
    obtain ⟨-, -, -, p', hp', hprovision'⟩ := attempt_of_ok hreport'
    cases hp.symm.trans hp'
    rw [hcut] at hprovision'
    rw [hlast] at hprovision
    exact hprovision'.symm.trans hprovision
  · obtain ⟨hreport', htwin⟩ := htwins hsame
    exact List.cons_eq_cons.2 ⟨hreport'.trans hreport.symm, (attempts_twin htwin later).2.1⟩
  · exact (attempts_twin (htwins hsame).2 later).2.2

/-- Half a second after the start of 1970. -/
def halfSecond : Timestamp :=
  ⟨0, 500000000, Timestamp.epoch.first_le, Timestamp.epoch.le_last, by decide,
    fun h => absurd h (by decide)⟩

/-- A new chain before its first block. -/
def newChain : Producer × Chain :=
  (⟨none⟩, ⟨Chain.genesisLedger, .new "unigrid", .zero⟩)

/-- The chain after a first block at half a second. -/
def halfway : Producer × Chain :=
  attempt Chain.sampleSettings newChain (.none, halfSecond)

/-- The chain after a restart. -/
def halfwayResumed : Producer × Chain :=
  (halfway.1.cut, ⟨halfway.2.ledger, (MintCache.new "unigrid").markProcessed 1, .zero⟩)

/-- A first block at half a second, a restart, and one more block at the same time. -/
theorem resume_exact_halfway :
    report Chain.sampleSettings (newChain, (.none, halfSecond))
      = .ok (Chain.firstIssue.outcome 1 .none) ∧
    (∀ k, 1 < k → (MintCache.new "unigrid").lookup k = halfway.2.cache.lookup k) ∧
    (∀ r ∈ reports Chain.sampleSettings halfway [(.none, halfSecond)], r.isOk) ∧
    ∃ p height, Compared Chain.sampleSettings halfSecond halfway halfwayResumed
      (.none, halfSecond) [] p height := by
  have hreport : report Chain.sampleSettings (newChain, (.none, halfSecond))
      = .ok (Chain.firstIssue.outcome 1 .none) := by
    decide +kernel
  have hstart : (MintCache.new "unigrid").addressPrefix = halfway.2.cache.addressPrefix := by
    decide +kernel
  have hcache (k : UInt64) (hk : 1 < k) :
      (MintCache.new "unigrid").lookup k = halfway.2.cache.lookup k := by
    have hfinished : halfway.2.cache = (MintCache.new "unigrid").finish 1 := by decide +kernel
    rw [hfinished, MintCache.lookup_finish, if_neg fun h => UInt64.not_lt.2 h.2 hk]
  have hok : ∀ r ∈ reports Chain.sampleSettings halfway [(.none, halfSecond)], r.isOk := by
    decide +kernel
  have hexact := resume_exact hreport (.new "unigrid") .zero
  rw [show attempt Chain.sampleSettings newChain (.none, halfSecond) = halfway from rfl] at hexact
  obtain ⟨-, hcompared⟩ := hexact hstart hcache
  exact ⟨hreport, hcache, hok, hcompared (.none, halfSecond) [] hok⟩

/-- Two blocks at the same half of a second. The producer that kept running takes the
second one for a block whose clock stands still, and issues the subsidy of a minute; the
one that went on from the ledger issues that of half a second. -/
theorem resumed_subsidy_differs :
    resume ⟨halfway.2.ledger, .new "unigrid", .zero⟩ .none
      = (.ok halfwayResumed.1, halfwayResumed.2) ∧
    begun (halfway, (.none, halfSecond)) = some ⟨2, halfSecond, some halfSecond⟩ ∧
    begun (halfwayResumed, (.none, halfSecond)) = some ⟨2, halfSecond, some .epoch⟩ ∧
    (report Chain.sampleSettings (halfway, (.none, halfSecond))).map (·.provision.amount)
      = .ok 98010000 ∧
    (report Chain.sampleSettings (halfwayResumed, (.none, halfSecond))).map (·.provision.amount)
      = .ok 816750 := by
  decide +kernel

/-- **A last block at a whole second**: a restart changes nothing that is begun, reported
or stored, whatever is attempted and whether it succeeds or not. -/
theorem resume_invisible {n : Producer × Chain} {a : Outages × Timestamp} {outcome : BlockOutcome}
    (h : report s (n, a) = .ok outcome) (hwhole : a.2.nanos = 0) (cache : MintCache)
    (metrics : Metrics) (hstart : cache.addressPrefix = (attempt s n a).2.cache.addressPrefix)
    (hcache : ∀ k, outcome.height < k → cache.lookup k = (attempt s n a).2.cache.lookup k)
    (l : List (Outages × Timestamp)) :
    let kept := attempt s n a
    ∃ resumed : Producer × Chain,
      resume ⟨kept.2.ledger, cache, metrics⟩ .none = (.ok resumed.1, resumed.2) ∧
      begins s resumed l = begins s kept l ∧ reports s resumed l = reports s kept l ∧
      (runAll (attempt s) resumed l).2.ledger = (runAll (attempt s) kept l).2.ledger := by
  intro kept
  obtain ⟨-, hkept, hnoted, -⟩ := attempt_of_ok h
  have hcut : cut ⟨some (outcome.height, a.2)⟩ = kept.1 := by
    rw [hkept, cut, Option.map_some, Timestamp.wholeSecond_eq_self hwhole]
  have hresume := resume_noted (c := ⟨kept.2.ledger, cache, metrics⟩) hnoted
  rw [hcut] at hresume
  have htwins : Twins
      (kept.1, ⟨kept.2.ledger, cache.markProcessed outcome.height, metrics⟩) kept :=
    ⟨rfl, _, congrArg Producer.last hkept, alike_resumed hstart hcache metrics⟩
  exact ⟨_, hresume, attempts_twin htwins l⟩

end Producer

end Mintage
