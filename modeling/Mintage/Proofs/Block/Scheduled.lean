import Mintage.Proofs.Account.Vesting
import Mintage.Proofs.Block.Accounting
import Mintage.Proofs.Block.Conservation

/-!
What the feed can do to a block. With every call in order, a block whose subsidy is
issued is finished: its scheduled mint is applied or skipped. Only a mint that passes
all of its checks can stop the block, by asking for more than the supply can take.

* `Admitted`: a scheduled mint passes the checks that do not depend on the time of the
  block.
* `planScheduled_of_sound`, `carryOut_of_sound`: checking and carrying out a scheduled
  mint in a sound ledger.
* `Chain.beginBlock_isOk_iff`: which blocks are finished once their subsidy is issued.
* `Chain.beginBlock_of_issue`: how every block over a reachable ledger ends once its
  subsidy is issued.
* `Chain.beginBlock_stopped_by_feed`: a block over a new chain that the feed stops.
-/

namespace Mintage

open StoreM

/-! ### Checking -/

/-- A scheduled mint passes the checks that do not depend on the time of the block:
those made before its recipient is looked at, and the account stored for its address, if
any, is its own. -/
structure Admitted (L : Ledger) (height : UInt64) (addressPrefix : String) (m : Mint)
    (address : Address)
    (amount : UInt64) : Prop extends Screened L height addressPrefix m address amount where
  owner : ∀ a, L.account? address = .ok (some a) → a.address = address

/-- The recipient of an admitted mint is determined, and so is its amount. -/
lemma Screened.unique {L : Ledger} {height : UInt64} {addressPrefix : String} {m : Mint}
    {a b : Address} {n k : UInt64} (h : Screened L height addressPrefix m a n)
    (h' : Screened L height addressPrefix m b k) : a = b ∧ n = k :=
  ⟨Except.ok.inj (h.reads.symm.trans h'.reads), Option.some.inj (h.fits.symm.trans h'.fits)⟩

/-- A mint that is screened is admitted where the account stored for its address is its
own. -/
lemma Screened.admitted {L : Ledger} {height : UInt64} {addressPrefix : String} {m : Mint}
    {address : Address} {amount : UInt64} {existing : Option Account}
    (h : Screened L height addressPrefix m address amount)
    (haccount : L.account? address = .ok existing)
    (howner : ∀ a, existing = some a → a.address = address) :
    Admitted L height addressPrefix m address amount := by
  refine ⟨h, ?_⟩
  intro a ha
  rw [haccount] at ha
  exact howner a (Except.ok.inj ha)

/-- **Checking a scheduled mint** in a sound ledger, with every call in order: one that
is not admitted is refused with an error that does not abort the block; one that is
admitted is planned for its recipient, or leaves the calendar near its end. -/
theorem planScheduled_of_sound {L : Ledger} (hL : L.Sound) (ctx : BlockContext) (params : Params)
    (addressPrefix : String) (m : Mint) :
    ((∀ address amount, ¬ Admitted L ctx.height addressPrefix m address amount) ∧
      ∃ e, e.isFatal = false ∧
        (planScheduled ctx params addressPrefix m).runOn .none L = (.error (.failed e), L)) ∨
    ∃ address amount, Admitted L ctx.height addressPrefix m address amount ∧
      ((lastSecond < ctx.time.secs + vestingSeconds ∧
        (planScheduled ctx params addressPrefix m).runOn .none L = (.error .crashed, L)) ∨
      (ctx.time.secs + vestingSeconds ≤ lastSecond ∧ ∃ step,
        (planScheduled ctx params addressPrefix m).runOn .none L
          = (.ok ⟨address, .ofCoin ⟨params.mintDenom, amount⟩, step⟩, L))) := by
  obtain ⟨result, hrun, hends⟩ := planScheduled_cases ctx params addressPrefix m .none L
  rw [hrun]
  cases hends with
  | recordUnread h =>
      obtain ⟨r, hr⟩ := hL.wellFormed.mintRecord?_ok ctx.height
      exact absurd (hr.symm.trans (h rfl)) nofun
  | recorded h => exact .inl ⟨fun _ _ ha => absurd (h.symm.trans ha.unrecorded) nofun, _, rfl, rfl⟩
  | badAddress h => exact .inl ⟨fun _ _ ha => absurd (h.symm.trans ha.reads) nofun, _, rfl, rfl⟩
  | badAmount h => exact .inl ⟨fun _ _ ha => absurd (h.symm.trans ha.fits) nofun, _, rfl, rfl⟩
  | @accountUnread address _ _ _ h =>
      obtain ⟨existing, hexisting⟩ := hL.wellFormed.account?_ok address
      exact absurd (hexisting.symm.trans (h rfl)) nofun
  | @balanceUnread address _ _ _ h =>
      obtain ⟨balance, hbalance⟩ := hL.wellFormed.balance_ok address
      exact absurd (hbalance.symm.trans (h rfl)) nofun
  | @refused address amount existing balance e hscreened haccount h =>
      refine .inl ⟨fun other _ ha => ?_, _, rfl, rfl⟩
      obtain ⟨rfl, -⟩ := ha.unique hscreened
      rcases vestingStep_cases existing other balance ctx.time with
        ⟨a, rfl, hne, -⟩ | ⟨-, ⟨-, h'⟩ | ⟨-, step, h'⟩⟩
      · exact hne (ha.owner a haccount)
      · exact absurd (h.symm.trans h') nofun
      · exact absurd (h.symm.trans h') nofun
  | @crashed address amount existing balance hscreened haccount h =>
      rcases vestingStep_cases existing address balance ctx.time with
        ⟨a, -, -, e, h'⟩ | ⟨howner, ⟨htime, -⟩ | ⟨-, step, h'⟩⟩
      · exact absurd (h.symm.trans h') nofun
      · exact .inr ⟨address, amount, hscreened.admitted haccount howner, .inl ⟨htime, rfl⟩⟩
      · exact absurd (h.symm.trans h') nofun
  | @planned address amount existing balance step hscreened haccount hheld h =>
      rcases vestingStep_cases existing address balance ctx.time with
        ⟨a, -, -, e, h'⟩ | ⟨howner, ⟨-, h'⟩ | ⟨htime, -⟩⟩
      · exact absurd (h.symm.trans h') nofun
      · exact absurd (h.symm.trans h') nofun
      · exact .inr ⟨address, amount, hscreened.admitted haccount howner,
          .inr ⟨htime, step, rfl⟩⟩

/-! ### Carrying out -/

/-- Taking the step of the recipient's account, with every call in order, succeeds and
makes nothing. -/
lemma account_of_sound {L : Ledger} (hL : L.Sound) (p : MintPlan) :
    ∃ next M, p.account.runOn .none L = (.ok next, M) ∧ M.Sound ∧
      ∀ d, M.supplyTotal d = L.supplyTotal d := by
  have hquiet := account_quiet p .none L
  rcases account_cases p .none L with ⟨e, ho, -⟩ | ⟨a, -, h⟩ | ⟨t, -, h⟩
  · exact absurd rfl ho
  all_goals
    rw [h] at hquiet
    exact ⟨_, _, h, Ledger.Conserves.sound ⟨_, hquiet.makes⟩ hL, hquiet.makes.supply⟩

/-- **Carrying out a plan** in a sound ledger, with every call in order, succeeds where
the supply can take the coins, and otherwise stops with the error of the bank. -/
theorem carryOut_of_sound {L : Ledger} (hL : L.Sound) (p : MintPlan) (record : MintRecord) :
    ((∀ d, L.supplyTotal d + p.coins.amounts d < UInt64.size) →
      ∃ transition M, (p.carryOut record).runOn .none L = (.ok (record, transition), M)) ∧
    ((∃ d, UInt64.size ≤ L.supplyTotal d + p.coins.amounts d) →
      ∃ e M, (p.carryOut record).runOn .none L = (.error (.failed (.bank (.overflow e))), M)) := by
  obtain ⟨next, M, hnext, hM, hsame⟩ := account_of_sound hL p
  rcases carryOut_cases p record .none L with ⟨e, he, -⟩ | ⟨next', M', hnext', hcommit⟩
  · rw [hnext] at he
    cases he
  rw [hnext] at hnext'
  cases hnext'
  simp only [← hsame]
  rcases hcommit with ⟨e, he, h⟩ | ⟨ws, hws, h⟩
  · refine ⟨?_, ?_⟩
    · intro hfits
      obtain ⟨ws, hws⟩ := hM.commitWrites_ok next.account record hfits
      rw [hws] at he
      cases he rfl
    · rintro ⟨d, hd⟩
      obtain ⟨detail, hdetail⟩ := hM.commitWrites_error next.account record hd
      obtain rfl := Except.error.inj (hdetail.symm.trans (he rfl))
      exact ⟨detail, M, h⟩
  · refine ⟨fun _ => ⟨next.transition, _, h⟩, ?_⟩
    rintro ⟨d, hd⟩
    obtain ⟨detail, hdetail⟩ := hM.commitWrites_error next.account record hd
    rw [hws] at hdetail
    cases hdetail

/-- The supply can take one coin where it can take it in its denomination. -/
lemma fits_ofCoin_iff (L : Ledger) (c : Coin) :
    (∀ d, L.supplyTotal d + (Coins.ofCoin c).amounts d < UInt64.size) ↔
      L.supplyTotal c.denom + c.amount.toNat < UInt64.size := by
  simp only [Coins.amounts, Coins.amountOf_ofCoin]
  constructor
  · intro h
    simpa using h c.denom
  · intro h d
    by_cases hd : c.denom = d
    · rw [if_pos hd, ← hd]
      exact h
    · rw [if_neg hd]
      exact L.supplyTotal_lt d

/-- **A scheduled mint** in a sound ledger, with every call in order: one that is not
admitted is refused with an error that does not abort the block; one that is admitted
leaves the calendar, is carried out, or is refused by the bank. -/
theorem applyScheduled_of_sound {L : Ledger} (hL : L.Sound) (ctx : BlockContext) (params : Params)
    (minted : Coins) (addressPrefix : String) (m : Mint) :
    ((∀ address amount, ¬ Admitted L ctx.height addressPrefix m address amount) ∧
      ∃ e M, e.isFatal = false ∧
        (applyScheduled ctx params minted addressPrefix m).runOn .none L
          = (.error (.failed e), M)) ∨
    ∃ address amount, Admitted L ctx.height addressPrefix m address amount ∧
      ((lastSecond < ctx.time.secs + vestingSeconds ∧
        (applyScheduled ctx params minted addressPrefix m).runOn .none L = (.error .crashed, L)) ∨
      ctx.time.secs + vestingSeconds ≤ lastSecond ∧
      ((L.supplyTotal params.mintDenom + amount.toNat < UInt64.size →
        ∃ result M, (applyScheduled ctx params minted addressPrefix m).runOn .none L
          = (.ok result, M)) ∧
      (UInt64.size ≤ L.supplyTotal params.mintDenom + amount.toNat →
        ∃ e M, (applyScheduled ctx params minted addressPrefix m).runOn .none L
          = (.error (.failed (.bank (.overflow e))), M)))) := by
  have happly := applyScheduled_cases ctx params minted addressPrefix m .none L
  rcases planScheduled_of_sound hL ctx params addressPrefix m with
    ⟨hnot, e, hfatal, hplan⟩ | ⟨address, amount, hadmitted, ⟨htime, hplan⟩ | ⟨htime, step, hplan⟩⟩
  · refine .inl ⟨hnot, e, L, hfatal, ?_⟩
    rcases happly with ⟨f, hf, h⟩ | ⟨plan, hp, -⟩
    · rw [hplan] at hf
      cases hf
      exact h
    · rw [hplan] at hp
      cases hp
  · refine .inr ⟨address, amount, hadmitted, .inl ⟨htime, ?_⟩⟩
    rcases happly with ⟨f, hf, h⟩ | ⟨plan, hp, -⟩
    · rw [hplan] at hf
      cases hf
      exact h
    · rw [hplan] at hp
      cases hp
  · refine .inr ⟨address, amount, hadmitted, .inr ⟨htime, ?_⟩⟩
    rcases happly with ⟨f, hf, -⟩ | ⟨plan, hp, h⟩
    · rw [hplan] at hf
      cases hf
    · rw [hplan] at hp
      cases hp
      rw [h]
      obtain ⟨hok, herror⟩ :=
        carryOut_of_sound hL ⟨address, .ofCoin ⟨params.mintDenom, amount⟩, step⟩
        (MintPlan.record ⟨address, .ofCoin ⟨params.mintDenom, amount⟩, step⟩ ctx m minted)
      have hfits := fits_ofCoin_iff L ⟨params.mintDenom, amount⟩
      refine ⟨fun hlt => ?_, fun hge => herror ⟨params.mintDenom, ?_⟩⟩
      · obtain ⟨t, M, hrun⟩ := hok (hfits.2 hlt)
        exact ⟨_, M, hrun⟩
      · rwa [Coins.amounts, Coins.amountOf_ofCoin, if_pos rfl]

/-! ### The block -/

/-- Issuing the subsidy keeps a ledger sound. -/
lemma issueSubsidy_sound {s : Settings} {ctx : BlockContext} {o : Outages} {L M : Ledger}
    {r : Except (Stop MintError) Issue} (hL : L.Sound)
    (h : (issueSubsidy s ctx).runOn o L = (r, M)) : M.Sound := by
  have hconserves := issueSubsidy_within Ledger.block_conserves s ctx o L
  rw [h] at hconserves
  exact hconserves.sound hL

namespace Chain

/-- How a block with a scheduled mint ends once its subsidy is issued. -/
lemma beginBlock_of_applyScheduled {c : Chain} {s : Settings} {o : Outages}
    {ctx : BlockContext} {i : Issue}
    {L M : Ledger} {m : Mint} {r : Except (Stop MintError) (MintRecord × Transition)}
    (hissue : (issueSubsidy s ctx).runOn o c.ledger = (.ok i, L))
    (hlookup : c.cache.lookup ctx.height = some m)
    (happly : (applyScheduled ctx i.params i.minted c.cache.addressPrefix m).runOn o L = (r, M)) :
    match r with
    | .ok (record, transition) =>
        (c.beginBlock s o ctx).1 = .ok (i.outcome ctx.height (.applied record transition))
    | .error (.failed e) =>
        if e.isFatal then
          (c.beginBlock s o ctx).1 = .error (.failed e) ∧ (c.beginBlock s o ctx).2.cache = c.cache
        else (c.beginBlock s o ctx).1 = .ok (i.outcome ctx.height (.skipped m.address e))
    | .error .crashed => (c.beginBlock s o ctx).1 = .error .crashed := by
  rcases c.beginBlock_cases s o ctx with ⟨e, _, h, -⟩ | ⟨i', L', h, hrest⟩ <;>
    rw [hissue] at h <;> cases h
  rcases hrest with ⟨hnone, -⟩ | ⟨m', r', M', hsome, happly', hends⟩
  · rw [hlookup] at hnone
    cases hnone
  rw [hlookup] at hsome
  cases hsome
  rw [happly] at happly'
  cases happly'
  rcases hends with
    ⟨_, _, rfl, hends⟩ | ⟨e, rfl, hfatal, hends⟩ | ⟨e, rfl, hfatal, hends⟩ | ⟨rfl, hends⟩
  · exact hends.result
  · simp only [hfatal, Bool.false_eq_true, if_false]
    exact hends.result
  · simp only [hfatal, if_true]
    exact ⟨hends.result, hends.cache⟩
  · exact hends.result

/-- A block without a scheduled mint is finished once its subsidy is issued. -/
lemma beginBlock_of_lookup_none {c : Chain} {s : Settings} {o : Outages} {ctx : BlockContext}
    {i : Issue} {L : Ledger} (hissue : (issueSubsidy s ctx).runOn o c.ledger = (.ok i, L))
    (hlookup : c.cache.lookup ctx.height = none) :
    (c.beginBlock s o ctx).1 = .ok (i.outcome ctx.height .none) := by
  rcases c.beginBlock_cases s o ctx with
    ⟨e, _, h, -⟩ | ⟨i', L', h, ⟨-, hends⟩ | ⟨m, _, _, hsome, -⟩⟩ <;>
    rw [hissue] at h <;> cases h
  · exact hends.result
  · rw [hlookup] at hsome
    cases hsome

/-- The feed asks too much of a block whose subsidy is issued: its scheduled mint is
admitted, but either the vesting leaves the calendar or the supply cannot take the
coins. -/
def Overreaches (c : Chain) (ctx : BlockContext) (i : Issue) (L : Ledger) : Prop :=
  ∃ m address amount, c.cache.lookup ctx.height = some m ∧
    Admitted L ctx.height c.cache.addressPrefix m address amount ∧
    (lastSecond < ctx.time.secs + vestingSeconds ∨
      UInt64.size ≤ L.supplyTotal i.params.mintDenom + amount.toNat)

/-- **A block whose subsidy is issued** in a sound ledger, with every call in order, is
finished unless the feed asks too much of it. -/
theorem beginBlock_isOk_iff {c : Chain} {s : Settings} {ctx : BlockContext} {i : Issue} {L : Ledger}
    (hL : L.Sound) (hissue : (issueSubsidy s ctx).runOn .none c.ledger = (.ok i, L)) :
    (c.beginBlock s .none ctx).1.isOk = true ↔ ¬ c.Overreaches ctx i L := by
  cases hlookup : c.cache.lookup ctx.height with
  | none =>
      rw [beginBlock_of_lookup_none hissue hlookup]
      refine iff_of_true rfl ?_
      rintro ⟨m, address, amount, hsome, -⟩
      rw [hlookup] at hsome
      cases hsome
  | some m =>
      rcases applyScheduled_of_sound hL ctx i.params i.minted c.cache.addressPrefix m with
        ⟨hnot, e, M, hfatal, happly⟩ |
          ⟨address, amount, hadmitted, ⟨hlate, happly⟩ | ⟨htime, hok, herror⟩⟩
      · have hskipped := beginBlock_of_applyScheduled hissue hlookup happly
        simp only [hfatal, Bool.false_eq_true, if_false] at hskipped
        rw [hskipped]
        refine iff_of_true rfl ?_
        rintro ⟨m', address, amount, hsome, hadmitted, -⟩
        cases hlookup.symm.trans hsome
        exact hnot address amount hadmitted
      · rw [beginBlock_of_applyScheduled hissue hlookup happly]
        exact iff_of_false nofun
          (not_not_intro ⟨m, address, amount, hlookup, hadmitted, .inl hlate⟩)
      · rcases Nat.lt_or_ge (L.supplyTotal i.params.mintDenom + amount.toNat) UInt64.size with
          hlt | hge
        · obtain ⟨⟨record, transition⟩, M, happly⟩ := hok hlt
          rw [beginBlock_of_applyScheduled hissue hlookup happly]
          refine iff_of_true rfl ?_
          rintro ⟨m', address', amount', hsome, hadmitted', hmuch⟩
          cases hlookup.symm.trans hsome
          -- an admitted mint determines its recipient and its amount
          obtain ⟨rfl, rfl⟩ := hadmitted.unique hadmitted'.toScreened
          omega
        · obtain ⟨e, M, happly⟩ := herror hge
          rw [(beginBlock_of_applyScheduled hissue hlookup happly).1]
          exact iff_of_false nofun
            (not_not_intro ⟨m, address, amount, hlookup, hadmitted, .inr hge⟩)

/-- **No feed content stops a block but by asking for too much.** Over every ledger that
operations and blocks lead to, with any cache and every call in order, a block whose
subsidy is issued ends as follows. Without a scheduled mint it is finished. A scheduled
mint that is not admitted is skipped. One that is admitted, in a block whose vesting
still lies in the calendar, is applied where the supply can take it; where the supply
cannot, the block stops with the error of the bank, and the mint stays scheduled. -/
theorem beginBlock_of_issue (run : List (LedgerStep × Outages)) (cache : MintCache)
    (metrics : Metrics) (s : Settings) (ctx : BlockContext) {i : Issue} {L : Ledger}
    (hissue : (issueSubsidy s ctx).runOn .none (Ledger.reached run) = (.ok i, L)) :
    ∃ supply, L.supply = .ok supply ∧
      match cache.lookup ctx.height with
      | none => (beginBlock ⟨Ledger.reached run, cache, metrics⟩ s .none ctx).1
          = .ok (i.outcome ctx.height .none)
      | some m =>
          ((∀ address amount, ¬ Admitted L ctx.height cache.addressPrefix m address amount) →
            ∃ e, (beginBlock ⟨Ledger.reached run, cache, metrics⟩ s .none ctx).1
              = .ok (i.outcome ctx.height (.skipped m.address e))) ∧
          ∀ address amount, Admitted L ctx.height cache.addressPrefix m address amount →
            ctx.time.secs + vestingSeconds ≤ lastSecond →
            ((supply.amountOf i.params.mintDenom).toNat + amount.toNat < UInt64.size →
              ∃ record transition, (beginBlock ⟨Ledger.reached run, cache, metrics⟩ s .none ctx).1
                = .ok (i.outcome ctx.height (.applied record transition))) ∧
            (UInt64.size ≤ (supply.amountOf i.params.mintDenom).toNat + amount.toNat →
              ∃ e, (beginBlock ⟨Ledger.reached run, cache, metrics⟩ s .none ctx).1
                  = .error (.failed (.bank (.overflow e))) ∧
                (beginBlock ⟨Ledger.reached run, cache, metrics⟩ s .none ctx).2.cache = cache) := by
  have hL : L.Sound := issueSubsidy_sound (Ledger.reached_sound run) hissue
  obtain ⟨supply, hsupply⟩ := hL.wellFormed.supply_ok
  refine ⟨supply, hsupply, ?_⟩
  rw [← Ledger.supplyTotal_of_supply hsupply]
  generalize hc : (⟨Ledger.reached run, cache, metrics⟩ : Chain) = c
  have hissue' : (issueSubsidy s ctx).runOn .none c.ledger = (.ok i, L) := by
    rw [← hc]
    exact hissue
  have hcache : cache = c.cache := by rw [← hc]
  rw [hcache]
  cases hlookup : c.cache.lookup ctx.height with
  | none =>
      exact beginBlock_of_lookup_none hissue' hlookup
  | some m =>
      rcases applyScheduled_of_sound hL ctx i.params i.minted c.cache.addressPrefix m with
        ⟨hnot, e, M, hfatal, happly⟩ | ⟨address, amount, hadmitted, hrest⟩
      · refine ⟨fun _ => ⟨e, ?_⟩, fun address amount h => absurd h (hnot address amount)⟩
        simpa only [hfatal, Bool.false_eq_true, if_false] using
          beginBlock_of_applyScheduled hissue' hlookup happly
      · refine ⟨fun hnot => absurd hadmitted (hnot address amount), ?_⟩
        intro address' amount' hadmitted' htime
        obtain ⟨rfl, rfl⟩ := hadmitted'.unique hadmitted.toScreened
        obtain ⟨-, hok, herror⟩ := hrest.resolve_left fun hlate => by omega
        refine ⟨?_, ?_⟩
        · intro hlt
          obtain ⟨result, M, happly⟩ := hok hlt
          exact ⟨result.1, result.2, beginBlock_of_applyScheduled hissue' hlookup happly⟩
        · intro hge
          obtain ⟨e, M, happly⟩ := herror hge
          exact ⟨e, beginBlock_of_applyScheduled hissue' hlookup happly⟩

/-! ### The first block of a new chain -/

/-- The recipient of the examples. -/
def sampleRecipient : String := "unigrid1pk2sxhrywmxsqtnas3p7gu0t8x43hlvy4jatsg"

/-- The recipient's address, once it is read. -/
def sampleAddress : Address :=
  ⟨sampleRecipient, Text.utf8 "1pk2sxhrywmxsqtnas3p7gu0t8x43hlvy4jatsg"⟩

/-- A snapshot of the feed that schedules one mint, of some tokens at height 1. -/
def sampleFeed (tokens : Int64) : Snapshot :=
  { Snapshot.empty with mints := OrderedMap.empty.insert (sampleRecipient ++ "/1") tokens }

/-- A new cache that has taken in such a snapshot. -/
def sampleCache (tokens : Int64) : MintCache :=
  ((MintCache.new "unigrid").merge (sampleFeed tokens)).1

/-- The settings of a chain that configures nothing. -/
def sampleSettings : Settings := ⟨"fee_collector", Dec.withPrecision 67 2⟩

/-- The ledger of a new chain: the default genesis is all that was written. -/
def genesisLedger : Ledger := Ledger.reached [(.ensureGenesis .default, .none)]

/-- A new chain for whose first block a mint is scheduled. -/
def sampleChain (tokens : Int64) : Chain := ⟨genesisLedger, sampleCache tokens, .zero⟩

/-- The first block, at the start of 1970. -/
def firstBlock : BlockContext := ⟨1, .epoch, none⟩

/-- The subsidy of the first block. -/
def firstIssue : Issue :=
  Issue.compute sampleSettings firstBlock .default (Minter.initial.syncWith .default)

/-- The ledger once it is handed on. -/
def firstIssued : Ledger := ((issueSubsidy sampleSettings firstBlock).runOn .none genesisLedger).2

/-- The first block of a new chain applies a mint of a hundred tokens that the feed
schedules for it. -/
theorem beginBlock_of_issue_hundred :
    (issueSubsidy sampleSettings firstBlock).runOn .none genesisLedger
      = (.ok firstIssue, firstIssued) ∧
    ∃ record transition,
      (beginBlock ⟨genesisLedger, sampleCache 100, .zero⟩ sampleSettings .none firstBlock).1
        = .ok (firstIssue.outcome 1 (.applied record transition)) := by
  have hissue : (issueSubsidy sampleSettings firstBlock).runOn .none genesisLedger
      = (.ok firstIssue, firstIssued) := by
    decide +kernel
  refine ⟨hissue, ?_⟩
  obtain ⟨supply, hsupply, h⟩ :=
    beginBlock_of_issue [(.ensureGenesis .default, .none)] (sampleCache 100) .zero sampleSettings
      firstBlock hissue
  have hlookup : (sampleCache 100).lookup firstBlock.height = some ⟨sampleRecipient, 100, 1⟩ := by
    decide +kernel
  rw [hlookup] at h
  have hcounted : firstIssued.supply = .ok (.ofCoin ⟨"ugd", 98010000⟩) := by decide +kernel
  obtain rfl : Coins.ofCoin ⟨"ugd", 98010000⟩ = supply :=
    Except.ok.inj (hcounted.symm.trans hsupply)
  refine (h.2 sampleAddress 10000000000 ⟨⟨?_, ?_, ?_⟩, fun a ha => ?_⟩ (by decide)).1 ?_
  · decide +kernel
  · decide +kernel
  · decide +kernel
  · have hnone : firstIssued.account? sampleAddress = .ok none := by decide +kernel
    exact absurd (hnone.symm.trans ha) nofun
  · decide +kernel

/-- A feed can stop a chain: the first block of a new chain issues its subsidy, and then
returns an error, when the feed schedules as many tokens for it as just fit in base units. -/
theorem beginBlock_stopped_by_feed :
    (issueSubsidy sampleSettings firstBlock).runOn .none genesisLedger
      = (.ok firstIssue, firstIssued) ∧
    (beginBlock ⟨genesisLedger, sampleCache 184467440737, .zero⟩ sampleSettings .none firstBlock).1
      = .error (.failed (.bank (.overflow (.cause (.overflow (.cause
          ⟨.ofCoin ⟨"ugd", 98010000⟩, .ofCoin ⟨"ugd", 18446744073700000000⟩⟩)))))) ∧
    (beginBlock ⟨genesisLedger, sampleCache 184467440737, .zero⟩ sampleSettings .none
        firstBlock).2.cache
      = sampleCache 184467440737 := by
  decide +kernel

end Chain

end Mintage
