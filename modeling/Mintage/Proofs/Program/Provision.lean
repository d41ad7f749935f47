import Mintage.Proofs.Block.Restart
import Mintage.Proofs.Emission.Issuance
import Mintage.Proofs.Emission.Params
import Mintage.Proofs.Program.QueryLine

/-!
The subsidy worked out without a node, and the one that a block mints.

* `elapsedSeconds_of_since`: where a whole number of seconds has passed, only that number counts,
  at any time of any day and over any leap second.
* `StandsFor`, `StandsFor.elapsed`: what may be given to the tool for the time between two points.
* `offlineProvision_cases`, `run_provisionLine_cases`: what the tool works out and shows, and the
  one thing that it refuses a positive interval for.
* `Chain.Subsidy`, `Chain.subsidy_provision`: the coin that a block computes, mints and reports.
* `offlineProvision_agrees`: the tool works out just the coin that the block mints.
-/

namespace Mintage

/-! ### Seconds -/

namespace Timestamp

/-- A point that is no later than another does not lie a whole second after it, wherever leap
seconds fall. -/
lemma since_lt_of_notAfter {a b : Timestamp} (h : a.notAfter b) : a.since b < 1000000000 := by
  have horder := of_decide_eq_true h
  have hnanos := a.nanos_lt
  have hleap := b.leap
  simp only [since, secondOfDay]
  split_ifs <;> omega

lemma ofUnix?_eq_some {secs : ℤ} {nanos : ℕ} {t : Timestamp} (h : ofUnix? secs nanos = some t) :
    t.secs = secs ∧ t.nanos = nanos := by
  rw [ofUnix?] at h
  split_ifs at h
  cases h
  exact ⟨rfl, rfl⟩

/-- A second lies so many seconds after the epoch as it is called. -/
lemma since_epoch {secs : ℤ} {t : Timestamp} (h : ofUnix? secs 0 = some t) :
    t.since epoch = secs * 1000000000 := by
  obtain ⟨rfl, hnanos⟩ := ofUnix?_eq_some h
  have hepoch : epoch.secs = 0 ∧ epoch.nanos = 0 := ⟨rfl, rfl⟩
  simp [since, hnanos, hepoch]

lemma millisSince_of_since {a b : Timestamp} {secs : ℤ} (h : a.since b = secs * 1000000000) :
    a.millisSince b = secs * 1000 := by
  have hscale : secs * 1000000000 = secs * 1000 * 1000000 := by ring
  rw [millisSince, h, hscale]
  exact Int.mul_tdiv_cancel _ (by decide)

end Timestamp

/-- **A whole number of seconds** between two points of time is all that counts. -/
lemma elapsedSeconds_of_since {current previous : Timestamp} {secs : ℤ} (hpos : 1 ≤ secs)
    (h : current.since previous = secs * 1000000000) :
    elapsedSeconds current previous = (Binary64.ofInt (secs * 1000)).overNat 1000 := by
  have hafter : ¬ current.notAfter previous := fun hnot => by
    have := Timestamp.since_lt_of_notAfter hnot
    omega
  rw [elapsedSeconds, if_neg hafter, Timestamp.millisSince_of_since h]

/-- A clock that does not move forward counts as the same nominal minute everywhere. -/
lemma elapsedSeconds_of_notAfter {current previous : Timestamp}
    (h : current.notAfter previous) :
    elapsedSeconds current previous = elapsedSeconds .epoch .epoch := by
  rw [elapsedSeconds, if_pos h]
  rfl

/-! ### Without a node -/

namespace QueryTool

open Console

/-- A number of seconds stands for the time that has passed between two points: it is the number
of seconds from the one to the other, and there is a time that long after the epoch; or it is not
positive, and the clock did not move forward. -/
inductive StandsFor (n : Int64) (current previous : Timestamp) : Prop where
  | whole (pos : 1 ≤ n.toInt) (since : current.since previous = n.toInt * 1000000000)
      (time : (Timestamp.ofUnix? n.toInt 0).isSome)
  | stalled (nonpos : n.toInt ≤ 0) (stalled : current.notAfter previous)

/-- So many seconds after the epoch there is no time. -/
def TooLate (n : Int64) : Prop := 1 ≤ n.toInt ∧ Timestamp.ofUnix? n.toInt 0 = none

variable {params : Params} {interval : Dec} {height : UInt64} {n : Int64}

lemma timeAfterEpoch?_of_nonpos (h : n.toInt ≤ 0) : timeAfterEpoch? n = some .epoch := by
  rw [timeAfterEpoch?, max_eq_right h]
  rfl

lemma timeAfterEpoch?_of_pos (h : 1 ≤ n.toInt) :
    timeAfterEpoch? n = Timestamp.ofUnix? n.toInt 0 := by
  rw [timeAfterEpoch?, max_eq_left (by omega)]

/-- There is a time for every number of seconds that is not too large, the negative ones
included. -/
lemma timeAfterEpoch?_eq_none_iff : timeAfterEpoch? n = none ↔ TooLate n := by
  rcases Int.lt_or_le n.toInt 1 with hnonpos | hpos
  · rw [timeAfterEpoch?_of_nonpos (by omega)]
    exact iff_of_false nofun fun h => absurd h.1 (by omega)
  · rw [timeAfterEpoch?_of_pos hpos, TooLate, and_iff_right hpos]

/-- **What stands for the time between two points** takes as long from the epoch on. -/
lemma StandsFor.elapsed {current previous : Timestamp} (h : StandsFor n current previous) :
    ∃ time, timeAfterEpoch? n = some time ∧
      elapsedSeconds time .epoch = elapsedSeconds current previous := by
  cases h with
  | whole pos since time =>
      obtain ⟨time, htime⟩ := Option.isSome_iff_exists.1 time
      refine ⟨time, (timeAfterEpoch?_of_pos pos).trans htime, ?_⟩
      rw [elapsedSeconds_of_since pos since,
        elapsedSeconds_of_since pos (Timestamp.since_epoch htime)]
  | stalled nonpos stalled =>
      exact ⟨.epoch, timeAfterEpoch?_of_nonpos nonpos, (elapsedSeconds_of_notAfter stalled).symm⟩

/-- The milliseconds since the epoch fit a signed word. -/
lemma signed?_millisSince_epoch {time : Timestamp} (h : timeAfterEpoch? n = some time) :
    (Word.signed? (time.millisSince .epoch)).isSome := by
  have hfirst := time.first_le
  have hlast := time.le_last
  have hlow : Int64.minValue.toInt ≤ firstSecond * 1000 := by decide
  have hhigh : lastSecond * 1000 ≤ Int64.maxValue.toInt := by decide
  obtain ⟨hsecs, -⟩ := Timestamp.ofUnix?_eq_some h
  have hmillis : time.millisSince .epoch = time.secs * 1000 := by
    rw [hsecs]
    exact Timestamp.millisSince_of_since (Timestamp.since_epoch h)
  rw [hmillis, Word.signed?, if_pos (by omega)]
  rfl

/-- A positive interval passes the check with the defaults for the other parameters. -/
lemma validate_withInterval (h : 0 < interval.raw) :
    ({ Params.default with subsidyHalvingInterval := interval } : Params).validate = .ok () := by
  have hdefault := (Params.validate_eq_ok_iff .default).1 rfl
  exact (Params.validate_eq_ok_iff _).2
    ⟨hdefault.denom, h, hdefault.goal, hdefault.goal_le, hdefault.blocks⟩

/-- **The tool** refuses a positive interval where there is no time so long after the epoch, and
works out the subsidy for that time otherwise. -/
lemma offlineProvision_cases (h : 0 < interval.raw) (height : UInt64) (n : Int64) :
    (timeAfterEpoch? n = none ∧ offlineProvision height n interval = .error (.outOfRange n)) ∨
    ∃ time, timeAfterEpoch? n = some time ∧
      offlineProvision height n interval = .ok (Mintage.provision
        { Params.default with subsidyHalvingInterval := interval } height time .epoch) := by
  simp only [offlineProvision, validate_withInterval h]
  cases timeAfterEpoch? n with
  | none => exact .inl ⟨rfl, rfl⟩
  | some time => exact .inr ⟨time, rfl, rfl⟩

/-- What the tool works out is the subsidy for any two points of time as far apart. -/
lemma offlineProvision_of_standsFor (husable : params.Usable)
    (hdenom : params.mintDenom = Params.default.mintDenom) (height : UInt64)
    {current previous : Timestamp} (h : StandsFor n current previous) :
    offlineProvision height n params.subsidyHalvingInterval
      = .ok (Mintage.provision params height current previous) := by
  obtain ⟨time, htime, helapsed⟩ := h.elapsed
  rcases offlineProvision_cases husable.interval height n with ⟨hnone, -⟩ | ⟨_, hsome, hok⟩
  · cases htime.symm.trans hnone
  · cases htime.symm.trans hsome
    rw [hok]
    simp only [Mintage.provision, provisionAmount, helapsed, hdenom]

/-- **What the tool shows**: its refusal, just where the number of seconds is too large, or the
coin that it has worked out. -/
lemma run_provisionLine_cases (h : 0 < interval.raw) (height : UInt64) (n : Int64)
    (fetch : String → Net.Reply) :
    (TooLate n ∧ offlineProvision height n interval = .error (.outOfRange n) ∧
      run fetch (provisionLine height n interval)
        = failedWith "" (ProvisionError.outOfRange n).message) ∨
    ¬ TooLate n ∧ ∃ coin, offlineProvision height n interval = .ok coin ∧
      run fetch (provisionLine height n interval) = done (showProvision coin) := by
  rw [← timeAfterEpoch?_eq_none_iff, run_provisionLine]
  rcases offlineProvision_cases h height n with ⟨hnone, herror⟩ | ⟨time, hsome, hok⟩
  · exact .inl ⟨hnone, herror, by rw [runCommand, herror]⟩
  · exact .inr ⟨by rw [hsome]; nofun, _, hok, by rw [runCommand, hok]⟩

end QueryTool

/-! ### In a block -/

namespace Chain

/-- The subsidy of a block: the coin that it computes whatever minter it finds, that it mints
where the bank takes it, and that it reports once it is finished. -/
structure Subsidy (c : Chain) (s : Settings) (o : Outages) (ctx : BlockContext) (params : Params)
    (coin : Coin) : Prop where
  computed : ∀ minter : Minter,
    (Issue.compute s ctx params (minter.syncWith params)).provision = coin
  minted : ∀ i L, (mintSubsidy s ctx).runOn o c.ledger = (.ok i, L) → i.minted = .ofCoin coin
  reported : ∀ outcome, (c.beginBlock s o ctx).1 = .ok outcome → outcome.provision = coin

/-- **A block's subsidy** is what the stored parameters ask for. -/
theorem subsidy_provision {c : Chain} {params : Params} (h : c.ledger.params? = .ok (some params))
    (s : Settings) (o : Outages) (ctx : BlockContext) :
    c.Subsidy s o ctx params
      (provision params ctx.height ctx.time (ctx.previous.getD ctx.time)) where
  computed _ := rfl
  minted i L hmint := by
    rcases mintSubsidy_cases s ctx o c.ledger with
      ⟨e, hrun⟩ | ⟨e, _, hrun⟩ | ⟨p, _, _, _, hp, -, -, rfl, -, hrun⟩ <;>
      rw [hrun] at hmint <;> cases hmint
    cases h.symm.trans hp
    rfl
  reported outcome hok := by
    obtain ⟨-, p, hp, hprovision⟩ := beginBlock_provision hok
    cases h.symm.trans hp
    exact hprovision

end Chain

/-! ### The two together -/

open QueryTool Console

/-- **The tool agrees with the chain.** A number of seconds that stands for the time between a
block and the one before gives the coin that the block has for its subsidy, whatever chain it
begins on, as long as the parameters stored there have the default denomination. The tool shows
that coin. It refuses just the positive numbers that lead past the last time there is, and says
so; it does not crash for any number, since none on the way leaves its word. -/
theorem offlineProvision_agrees {params : Params} (hvalid : params.validate = .ok ())
    (hdenom : params.mintDenom = Params.default.mintDenom) (height : UInt64) (n : Int64) :
    let interval := params.subsidyHalvingInterval
    (∀ (c : Chain) (s : Settings) (o : Outages) (ctx : BlockContext),
      c.ledger.params? = .ok (some params) → ctx.height = height →
      StandsFor n ctx.time (ctx.previous.getD ctx.time) →
      ∃ coin, offlineProvision height n interval = .ok coin ∧ c.Subsidy s o ctx params coin) ∧
    (∀ k ∈ decaySteps interval height, Dec.fitsWord k) ∧
    (∀ time, timeAfterEpoch? n = some time → (Word.signed? (time.millisSince .epoch)).isSome) ∧
    ∀ fetch, let shown := run fetch (provisionLine height n interval)
      (∀ coin, offlineProvision height n interval = .ok coin → shown = done (showProvision coin)) ∧
      (shown = failedWith "" (ProvisionError.outOfRange n).message ↔ TooLate n) ∧
      ∀ stdout, shown ≠ crashed stdout := by
  intro interval
  have husable := (Params.validate_eq_ok_iff params).1 hvalid
  refine ⟨fun c s o ctx hparams hheight hstands => ?_, fitsWord_decaySteps interval height,
    fun _ => signed?_millisSince_epoch, fun fetch => ?_⟩
  · refine ⟨_, offlineProvision_of_standsFor husable hdenom height hstands, ?_⟩
    exact hheight ▸ Chain.subsidy_provision hparams s o ctx
  · rcases run_provisionLine_cases husable.interval height n fetch with
      ⟨hlate, herror, hshown⟩ | ⟨hlate, coin, hok, hshown⟩ <;>
      rw [hshown]
    · refine ⟨fun coin hok => ?_, iff_of_true rfl hlate, nofun⟩
      cases herror.symm.trans hok
    · refine ⟨fun coin' hok' => ?_, iff_of_false nofun hlate, nofun⟩
      cases hok.symm.trans hok'
      rfl

/-- Ten seconds after half a second into 1970. -/
def tenSecondsLater : Timestamp :=
  ⟨10, 500000000, tenSeconds.first_le, tenSeconds.le_last, Producer.halfSecond.nanos_lt,
    fun h => absurd h (by decide)⟩

/-- A first block that is begun ten seconds after the one before. -/
def lateBlock : BlockContext := ⟨1, tenSecondsLater, some Producer.halfSecond⟩

/-- On a new chain, the block ten seconds after the one before has the coin that the tool works
out for ten seconds. -/
theorem offlineProvision_agrees_tenSeconds :
    Params.default.validate = .ok () ∧
    offlineProvision 1 10 Params.default.subsidyHalvingInterval = .ok ⟨"ugd", 16335000⟩ ∧
    (Chain.sampleChain 100).Subsidy Chain.sampleSettings .none lateBlock .default
      ⟨"ugd", 16335000⟩ ∧
    ((Chain.sampleChain 100).beginBlock Chain.sampleSettings .none lateBlock).1.isOk := by
  have hvalid : Params.default.validate = .ok () := by decide +kernel
  have hcoin : offlineProvision 1 10 Params.default.subsidyHalvingInterval
      = .ok ⟨"ugd", 16335000⟩ := by
    decide +kernel
  have hstands : StandsFor 10 tenSecondsLater Producer.halfSecond :=
    .whole (by decide) (by decide) (by decide)
  obtain ⟨coin, hok, hsubsidy⟩ := (offlineProvision_agrees hvalid rfl 1 10).1
    (Chain.sampleChain 100) Chain.sampleSettings .none lateBlock (by decide +kernel) rfl hstands
  cases hcoin.symm.trans hok
  exact ⟨hvalid, hcoin, hsubsidy, by decide +kernel⟩

/-- No time lies the least number of seconds after the epoch, that is, before it; but the tool does
not refuse that number. It counts as zero. -/
theorem remotePast_answered :
    Params.default.validate = .ok () ∧ Timestamp.ofUnix? Int64.minValue.toInt 0 = none ∧
    run (fun _ => .unreachable)
        (provisionLine 1 Int64.minValue Params.default.subsidyHalvingInterval)
      = done (showProvision ⟨"ugd", 98010000⟩) ∧
    done (showProvision ⟨"ugd", 98010000⟩)
      ≠ failedWith "" (ProvisionError.outOfRange Int64.minValue).message := by
  have hcoin : offlineProvision 1 Int64.minValue Params.default.subsidyHalvingInterval
      = .ok ⟨"ugd", 98010000⟩ := by
    decide +kernel
  refine ⟨by decide +kernel, by decide, ?_, nofun⟩
  rw [run_provisionLine, runCommand, hcoin]

end Mintage
