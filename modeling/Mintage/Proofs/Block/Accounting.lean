import Mintage.Proofs.Block.Begin
import Mintage.Proofs.Block.Genesis
import Mintage.Proofs.Data.History

/-!
The books of a chain: everything in circulation was minted as the subsidy of some block
or stands in the record of a scheduled mint, and no height is ever recorded twice.

* `Chain.beginBlock_effect`: one block mints its subsidy, and on top of it one recorded
  mint or nothing.
* `Chain.step_effect`: so does every step of a chain, with nothing but a block minting
  anything.
* `Chain.books_balanced`: over every run, each height gets at most one scheduled mint,
  its record stays as it is, and the supply is the sum of the subsidies and of the
  records.
-/

namespace Mintage

open StoreM

instance : Chains Ledger.Quiet := ⟨Ledger.Quiet.refl, Ledger.Quiet.trans⟩

/-! ### One block -/

/-- How much of a denomination a block's subsidy mints: nothing where the minting fails. -/
def subsidyMinted (s : Settings) (o : Outages) (ctx : BlockContext) (L : Ledger)
    (denom : String) : Nat :=
  match ((mintSubsidy s ctx).runOn o L).1 with
  | .ok i => i.minted.amounts denom
  | .error _ => 0

/-- Minting the subsidy makes just the subsidy. -/
lemma mintSubsidy_effect (s : Settings) (o : Outages) (ctx : BlockContext) (L : Ledger) :
    L.Makes ((mintSubsidy s ctx).runOn o L).2 (subsidyMinted s o ctx L) ∧
      L.SameRecords ((mintSubsidy s ctx).runOn o L).2 := by
  unfold subsidyMinted
  rcases mintSubsidy_cases s ctx o L with
    ⟨e, h⟩ | ⟨e, m, h⟩ | ⟨_, m, i, ws, -, -, -, -, hws, h⟩ <;> rw [h]
  · exact ⟨.refl L, .refl L⟩
  · exact ⟨(Ledger.store_minter_quiet L m).makes, (Ledger.store_minter_quiet L m).sameRecords⟩
  · exact ⟨(Ledger.store_minter_quiet L _).makes.zero_trans (Ledger.mintWrites_makes hws),
      (Ledger.store_minter_quiet L _).sameRecords.trans (Ledger.mintWrites_sameRecords hws)⟩

/-- Handing the subsidy on makes nothing more. -/
lemma issueSubsidy_effect (s : Settings) (o : Outages) (ctx : BlockContext) (L : Ledger) :
    L.Makes ((issueSubsidy s ctx).runOn o L).2 (subsidyMinted s o ctx L) ∧
      L.SameRecords ((issueSubsidy s ctx).runOn o L).2 := by
  obtain ⟨hmakes, hsame⟩ := mintSubsidy_effect s o ctx L
  rcases issueSubsidy_cases s ctx o L with
    ⟨e, M, hmint, h⟩ | ⟨i, M, hmint, ⟨e, h⟩ | ⟨ws, hws, h⟩⟩ <;>
    rw [hmint] at hmakes hsame <;> rw [h]
  · exact ⟨hmakes, hsame⟩
  · exact ⟨hmakes, hsame⟩
  · exact ⟨hmakes.trans_zero (Ledger.moduleTransferWrites_makes hws),
      hsame.trans (Ledger.moduleTransferWrites_sameRecords hws)⟩

lemma account_quiet (p : MintPlan) : Within Ledger.Quiet p.account := fun o L => by
  rcases account_cases p o L with ⟨e, -, h⟩ | ⟨a, -, h⟩ | ⟨t, -, h⟩ <;> rw [h]
  · exact .refl L
  · exact .refl L
  · exact Ledger.reserveNumber_quiet L

lemma bytes?_of_mintRecord?_none {L : Ledger} {height : UInt64}
    (h : L.mintRecord? height = .ok none) : L.bytes? (.mintRecord height) = none := by
  rw [Ledger.mintRecord?, Ledger.load?] at h
  split at h
  · assumption
  · split at h <;> cases h

/-- **A scheduled mint** that is carried out is recorded at its height, which had no
record; one that is not is quiet. -/
theorem applyScheduled_effect {ctx : BlockContext} {params : Params} {minted : Coins}
    {addressPrefix : String}
    {m : Mint} {o : Outages} {L M : Ledger} {r : Except (Stop MintError) (MintRecord × Transition)}
    (h : (applyScheduled ctx params minted addressPrefix m).runOn o L = (r, M)) :
    match r with
    | .ok (record, _) => record.blockHeight = ctx.height ∧ L.Records M record
    | .error _ => L.Quiet M := by
  rcases applyScheduled_cases ctx params minted addressPrefix m o L with
    ⟨e, -, h'⟩ | ⟨plan, hplan, h'⟩
  · rw [h'] at h
    cases h
    exact .refl L
  have hnone : L.mintRecord? ctx.height = .ok none := by
    obtain ⟨result, hresult, hends⟩ := planScheduled_cases ctx params addressPrefix m o L
    rw [hplan] at hresult
    cases hresult
    cases hends with
    | planned hscreened _ _ _ => exact hscreened.unrecorded
  rw [h'] at h
  have hstep := account_quiet plan o L
  rcases carryOut_cases plan (plan.record ctx m minted) o L with
    ⟨e, -, h''⟩ | ⟨next, N, haccount, ⟨e, -, h''⟩ | ⟨ws, hws, h''⟩⟩ <;> rw [h''] at h <;> cases h
  · exact .refl L
  · rw [haccount] at hstep
    exact hstep
  · rw [haccount] at hstep
    refine ⟨rfl, hstep.trans_records (Ledger.commitWrites_records hws ?_)⟩
    exact (hstep.sameRecords.entry ctx.height).trans (bytes?_of_mintRecord?_none hnone)

/-- Whether a block reports its scheduled mint as applied. -/
def appliedMint? (result : Except (Stop MintError) BlockOutcome) : Option MintRecord :=
  match result with
  | .ok ⟨_, _, _, .applied record _⟩ => some record
  | _ => none

namespace Chain

/-- **One block** mints its subsidy; after that it records the mint that it reports as
applied, or makes nothing. -/
theorem beginBlock_effect (c : Chain) (s : Settings) (o : Outages) (ctx : BlockContext) :
    ∃ L, c.ledger.Makes L (subsidyMinted s o ctx c.ledger) ∧ c.ledger.SameRecords L ∧
      match appliedMint? (c.beginBlock s o ctx).1 with
      | some record =>
          record.blockHeight = ctx.height ∧ L.Records (c.beginBlock s o ctx).2.ledger record
      | none => L.Quiet (c.beginBlock s o ctx).2.ledger := by
  obtain ⟨hmakes, hsame⟩ := issueSubsidy_effect s o ctx c.ledger
  rcases c.beginBlock_cases s o ctx with ⟨e, L, h, hends⟩ | ⟨i, L, h, hrest⟩ <;>
    rw [h] at hmakes hsame <;>
    refine ⟨L, hmakes, hsame, ?_⟩
  · rw [hends.result, hends.ledger]
    exact .refl L
  rcases hrest with ⟨-, hends⟩ | ⟨m, r, M, -, happly, hends⟩
  · rw [hends.result, hends.ledger]
    exact .refl L
  have heffect := applyScheduled_effect happly
  rcases hends with
    ⟨record, t, rfl, hends⟩ | ⟨e, rfl, -, hends⟩ | ⟨e, rfl, -, hends⟩ | ⟨rfl, hends⟩ <;>
    rw [hends.result, hends.ledger] <;> exact heffect

end Chain

/-! ### Runs -/

/-- What can happen to a chain: blocks, snapshots of the feed, restarts with an empty
cache, and the writing of the genesis and of the parameters, with or without their
checks. -/
inductive ChainStep where
  | beginBlock (s : Settings) (o : Outages) (ctx : BlockContext)
  | merge (snapshot : Snapshot)
  | restart (addressPrefix : String)
  | initGenesis (o : Outages) (g : Genesis)
  | ensureGenesis (o : Outages) (p : Params)
  | setParams (o : Outages) (p : Params)
  | writeParams (o : Outages) (p : Params)
  | writeMinter (o : Outages) (m : Minter)

namespace Chain

/-- The chain after a step, whether it succeeds or not. -/
def step (c : Chain) : ChainStep → Chain
  | .beginBlock s o ctx => (c.beginBlock s o ctx).2
  | .merge snapshot => { c with cache := (c.cache.merge snapshot).1 }
  | .restart addressPrefix => { Chain.new addressPrefix with ledger := c.ledger }
  | .initGenesis o g => (c.run o (MintM.initGenesis g)).2
  | .ensureGenesis o p => (c.run o (MintM.ensureGenesis p)).2
  | .setParams o p => (c.run o (MintM.setParams p)).2
  | .writeParams o p => (c.run o (StoreM.setParams MintError.store p)).2
  | .writeMinter o m => (c.run o (StoreM.setMinter MintError.store m)).2

/-- The mint that a step reports as applied. -/
def stepMint? : Chain × ChainStep → Option MintRecord
  | (c, .beginBlock s o ctx) => appliedMint? (c.beginBlock s o ctx).1
  | _ => none

/-- Whether a step is a block of the given height that reports its scheduled mint as
applied. -/
def appliesAt (height : UInt64) : Chain × ChainStep → Bool
  | (c, .beginBlock s o ctx) =>
      ctx.height = height && (appliedMint? (c.beginBlock s o ctx).1).isSome
  | _ => false

/-- How much of a denomination a step mints as the subsidy of a block. -/
def stepSubsidy (denom : String) : Chain × ChainStep → Nat
  | (c, .beginBlock s o ctx) => subsidyMinted s o ctx c.ledger denom
  | _ => 0

/-- **One step** mints a subsidy or none; after that it records the mint that it reports
as applied, or makes nothing. -/
theorem step_effect (c : Chain) (e : ChainStep) :
    ∃ L, c.ledger.Makes L (stepSubsidy · (c, e)) ∧ c.ledger.SameRecords L ∧
      match stepMint? (c, e) with
      | some record =>
          appliesAt record.blockHeight (c, e) = true ∧ L.Records (c.step e).ledger record
      | none => (∀ height, appliesAt height (c, e) = false) ∧ L.Quiet (c.step e).ledger := by
  have hquiet {α : Type} {m : MintM Ledger α} (hm : Within Ledger.Quiet m) (o : Outages) :
      c.ledger.Quiet (c.run o m).2.ledger := hm o c.ledger
  cases e with
  | beginBlock s o ctx =>
      obtain ⟨L, hmakes, hsame, hrest⟩ := c.beginBlock_effect s o ctx
      refine ⟨L, hmakes, hsame, ?_⟩
      simp only [stepMint?, appliesAt, step]
      cases happlied : appliedMint? (c.beginBlock s o ctx).1 with
      | none =>
          rw [happlied] at hrest
          exact ⟨fun _ => Bool.and_false _, hrest⟩
      | some record =>
          rw [happlied] at hrest
          exact ⟨by simp [hrest.1], hrest.2⟩
  | merge _ => exact ⟨c.ledger, .refl _, .refl _, fun _ => rfl, .refl _⟩
  | restart _ => exact ⟨c.ledger, .refl _, .refl _, fun _ => rfl, .refl _⟩
  | initGenesis o g =>
      exact ⟨c.ledger, .refl _, .refl _, fun _ => rfl,
        hquiet (MintM.initGenesis_within Ledger.store_minter_quiet Ledger.store_params_quiet g) o⟩
  | ensureGenesis o p =>
      exact ⟨c.ledger, .refl _, .refl _, fun _ => rfl,
        hquiet (MintM.ensureGenesis_within Ledger.store_minter_quiet Ledger.store_params_quiet p) o⟩
  | setParams o p =>
      exact ⟨c.ledger, .refl _, .refl _, fun _ => rfl,
        hquiet (MintM.setParams_within Ledger.store_params_quiet p) o⟩
  | writeParams o p =>
      exact ⟨c.ledger, .refl _, .refl _, fun _ => rfl,
        hquiet (MintM.writeParams_within Ledger.store_params_quiet _ p) o⟩
  | writeMinter o m =>
      exact ⟨c.ledger, .refl _, .refl _, fun _ => rfl,
        hquiet (MintM.writeMinter_within Ledger.store_minter_quiet _ m) o⟩

/-- A step keeps a ledger well-formed. -/
lemma step_wellFormed (c : Chain) (e : ChainStep) (hc : c.ledger.WellFormed) :
    (c.step e).ledger.WellFormed := by
  obtain ⟨L, hmakes, -, hrest⟩ := c.step_effect e
  have hL := hmakes.wellFormed hc
  split at hrest
  · exact hrest.2.makes.wellFormed hL
  · exact hrest.2.makes.wellFormed hL

/-- What a step adds to the supply and does not record is the subsidy. -/
lemma step_books (c : Chain) (e : ChainStep) (denom : String) :
    (c.step e).ledger.supplyTotal denom + c.ledger.recordTotal denom
      = c.ledger.supplyTotal denom + stepSubsidy denom (c, e)
        + (c.step e).ledger.recordTotal denom := by
  obtain ⟨L, hmakes, hsame, hrest⟩ := c.step_effect e
  have hsupply := hmakes.supply denom
  have hrecords := hsame.total denom
  split at hrest
  · have hmore := hrest.2.makes.supply denom
    have htotal := hrest.2.total denom
    omega
  · have hmore := hrest.2.makes.supply denom
    have htotal := hrest.2.sameRecords.total denom
    omega

/-- A record that is there stays, whatever step is taken. -/
lemma step_keepsRecord (c : Chain) (e : ChainStep) {height : UInt64} {b : Bytes}
    (h : c.ledger.bytes? (.mintRecord height) = some b) :
    (c.step e).ledger.bytes? (.mintRecord height) = some b := by
  obtain ⟨L, -, hsame, hrest⟩ := c.step_effect e
  have hL := (hsame.entry height).trans h
  split at hrest
  · next record _ =>
      -- the recorded height had no record, so it is another one
      have hne : height ≠ record.blockHeight := by
        rintro rfl
        rw [hrest.2.new] at hL
        cases hL
      exact (hrest.2.others height hne).trans hL
  · exact (hrest.2.sameRecords.entry height).trans hL

/-- A mint is applied only at a height without a record, and leaves its record there. -/
lemma stepMint?_records {c : Chain} {e : ChainStep} {record : MintRecord}
    (h : stepMint? (c, e) = some record) :
    c.ledger.bytes? (.mintRecord record.blockHeight) = none ∧
      (c.step e).ledger.bytes? (.mintRecord record.blockHeight) = some (Packed.pack record) := by
  obtain ⟨L, -, hsame, hrest⟩ := c.step_effect e
  rw [h] at hrest
  exact ⟨(hsame.entry _).symm.trans hrest.2.new, hrest.2.stored⟩

/-- A step that applies a mint at a height reports the record of that height. -/
lemma stepMint?_of_appliesAt {c : Chain} {e : ChainStep} {height : UInt64}
    (h : appliesAt height (c, e) = true) :
    ∃ record, stepMint? (c, e) = some record ∧ record.blockHeight = height := by
  obtain ⟨L, -, -, hrest⟩ := c.step_effect e
  cases hmint : stepMint? (c, e) with
  | none =>
      rw [hmint] at hrest
      rw [hrest.1 height] at h
      cases h
  | some record =>
      rw [hmint] at hrest
      refine ⟨record, rfl, ?_⟩
      cases e with
      | beginBlock s o ctx =>
          simp only [appliesAt, Bool.and_eq_true, decide_eq_true_eq] at h hrest
          exact hrest.1.1.symm.trans h.1
      | _ => cases h

/-- Over a run, each height gets at most one scheduled mint. -/
lemma countP_appliesAt_le_one (c : Chain) (run : List ChainStep) (height : UInt64) :
    (history step c run).countP (appliesAt height) ≤ 1 := by
  refine (countP_history_le_one (fun _ => True)
    (fun d : Chain => ∃ b, d.ledger.bytes? (.mintRecord height) = some b) (fun _ _ _ => trivial)
    (fun d e _ ⟨b, hb⟩ => ⟨b, d.step_keepsRecord e hb⟩) (fun d e _ h => ?_)
    (fun d e _ h => ?_) trivial run).1
  · obtain ⟨record, hmint, rfl⟩ := stepMint?_of_appliesAt h
    rintro ⟨b, hb⟩
    rw [(stepMint?_records hmint).1] at hb
    cases hb
  · obtain ⟨record, hmint, rfl⟩ := stepMint?_of_appliesAt h
    exact ⟨_, (stepMint?_records hmint).2⟩

/-- Over a run, a record that is there stays. -/
lemma runAll_keepsRecord {c : Chain} {height : UInt64} {b : Bytes}
    (h : c.ledger.bytes? (.mintRecord height) = some b) (run : List ChainStep) :
    (runAll step c run).ledger.bytes? (.mintRecord height) = some b :=
  run_invariant (I := fun d : Chain => d.ledger.bytes? (.mintRecord height) = some b)
    (fun d e hd => d.step_keepsRecord e hd) h run

/-- Over a run, what is reported as applied is what the height's record says from then
on. -/
lemma runAll_recorded {c : Chain} {run : List ChainStep} {e : Chain × ChainStep}
    (he : e ∈ history step c run) {record : MintRecord} (h : stepMint? e = some record) :
    (runAll step c run).ledger.bytes? (.mintRecord record.blockHeight)
      = some (Packed.pack record) := by
  induction run generalizing c with
  | nil => cases he
  | cons i r ih =>
      rcases List.mem_cons.1 he with rfl | he
      · exact runAll_keepsRecord (stepMint?_records h).2 r
      · exact ih he

/-- Over a run, what was added to the supply and is in no record was minted as a subsidy. -/
lemma runAll_books (c : Chain) (run : List ChainStep) (denom : String) :
    (runAll step c run).ledger.supplyTotal denom + c.ledger.recordTotal denom
      = c.ledger.supplyTotal denom + ((history step c run).map (stepSubsidy denom)).sum
        + (runAll step c run).ledger.recordTotal denom := by
  induction run generalizing c with
  | nil => rfl
  | cons e r ih =>
      have hstep := c.step_books e denom
      have hrest := ih (c.step e)
      simp only [runAll_cons, history, List.map_cons, List.sum_cons]
      omega

/-- **The books of a chain balance.** Over every run that starts with an empty ledger,
each height gets at most one scheduled mint; what is reported as applied is what the
height's record says, and no record ever changes; and the supply is made up of the
subsidies that were minted and of the amounts that are recorded. -/
theorem books_balanced (addressPrefix : String) (run : List ChainStep) :
    (∀ height, (history step (.new addressPrefix) run).countP (appliesAt height) ≤ 1) ∧
    (∀ e ∈ history step (.new addressPrefix) run, ∀ record, stepMint? e = some record →
      (runAll step (.new addressPrefix) run).ledger.mintRecord? record.blockHeight
        = .ok (some record)) ∧
    (∀ height record more,
      (runAll step (.new addressPrefix) run).ledger.mintRecord? height = .ok (some record) →
      (runAll step (.new addressPrefix) (run ++ more)).ledger.mintRecord? height
        = .ok (some record)) ∧
    ∃ supply records, (runAll step (.new addressPrefix) run).ledger.supply = .ok supply ∧
      (runAll step (.new addressPrefix) run).ledger.mintRecords = .ok records ∧
      ∀ denom, (supply.amountOf denom).toNat
        = ((history step (.new addressPrefix) run).map (stepSubsidy denom)).sum
          + (records.map fun r => (r.amount.amountOf denom).toNat).sum := by
  refine ⟨countP_appliesAt_le_one _ run, ?_, ?_, ?_⟩
  · intro e he record h
    exact Ledger.load?_of_bytes? (runAll_recorded he h)
  · intro height record more h
    rw [Ledger.mintRecord?, Ledger.load?] at h ⊢
    rw [runAll_append]
    cases hb : (runAll step (.new addressPrefix) run).ledger.bytes? (.mintRecord height) with
    | none =>
        rw [hb] at h
        cases h
    | some b =>
        rw [runAll_keepsRecord hb more]
        rwa [hb] at h
  · have hwell : (runAll step (.new addressPrefix) run).ledger.WellFormed :=
      run_invariant (I := fun d : Chain => d.ledger.WellFormed) step_wellFormed
        Ledger.wellFormed_empty run
    obtain ⟨supply, hsupply⟩ := hwell.supply_ok
    obtain ⟨records, hrecords, htotal⟩ := hwell.mintRecords_ok
    refine ⟨supply, records, hsupply, hrecords, fun denom => ?_⟩
    have hbooks := runAll_books (.new addressPrefix) run denom
    rw [Ledger.supplyTotal_of_supply hsupply] at hbooks
    rw [htotal denom]
    have hempty : (Chain.new addressPrefix).ledger.supplyTotal denom = 0 := rfl
    have hnone : (Chain.new addressPrefix).ledger.recordTotal denom = 0 := rfl
    omega

end Chain

end Mintage
