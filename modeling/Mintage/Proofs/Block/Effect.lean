import Mintage.Proofs.Account.Address
import Mintage.Proofs.Block.Failures
import Mintage.Proofs.Ledger.Gains

/-!
What a finished block leaves behind, entry by entry.

* `Issued`: the ledger once the subsidy is handed on. The minter has the interval of the
  parameters, the supply and the fee collector have the subsidy on top of what they had,
  and nothing else has changed.
* `Delivered`: the ledger once a scheduled mint is carried out. Its recipient and the
  supply have the coins, the account has taken its step and the record stands.
* `Chain.beginBlock_exact`: a finished block has issued the subsidy, has delivered the
  mint that it reports as applied, and has left every other entry as it was.
-/

namespace Mintage

open StoreM Ledger

/-! ### The subsidy -/

/-- The keys under which issuing the subsidy writes. -/
def Settings.issueKeys (s : Settings) : List Key :=
  [.minter, .moduleBalance mintModule, .supply, .moduleBalance s.feeCollector]

/-- Minting the subsidy changes nothing else, also where it stops half-way. -/
lemma mintSubsidy_frames (s : Settings) (ctx : BlockContext) (o : Outages) (L : Ledger) :
    L.Frames ((mintSubsidy s ctx).runOn o L).2 [.minter, .moduleBalance mintModule, .supply] := by
  rcases mintSubsidy_cases s ctx o L with
    ⟨e, h⟩ | ⟨e, m, h⟩ | ⟨_, m, _, ws, -, -, -, -, hws, h⟩ <;> rw [h]
  · exact .refl L _
  · exact (L.frames_store (.put .minter m)).mono (by simp [Write.put])
  · exact (L.frames_store (.put .minter _)).trans
      (frames_apply _ fun w hw => by simpa using mintWrites_keys hws w hw)

/-- **Issuing the subsidy** changes nothing else, also where it stops half-way. -/
lemma issueSubsidy_frames (s : Settings) (ctx : BlockContext) (o : Outages) (L : Ledger) :
    L.Frames ((issueSubsidy s ctx).runOn o L).2 s.issueKeys := by
  have hmint := mintSubsidy_frames s ctx o L
  rcases issueSubsidy_cases s ctx o L with
    ⟨e, M, hM, h⟩ | ⟨i, M, hM, ⟨e, h⟩ | ⟨ws, hws, h⟩⟩ <;>
    rw [hM] at hmint <;> rw [h]
  · exact hmint.mono (by simp [Settings.issueKeys])
  · exact hmint.mono (by simp [Settings.issueKeys])
  · have hsend : M.Frames (M.apply ws) [.moduleBalance mintModule, .moduleBalance s.feeCollector] :=
      frames_apply _ fun w hw => by simpa using moduleTransferWrites_keys hws w hw
    exact (hmint.trans hsend).mono (by simp [Settings.issueKeys])

/-- A ledger `L` once a block has issued its subsidy, with the parameters `p`. -/
structure Issued (s : Settings) (ctx : BlockContext) (L : Ledger) (p : Params) (subsidy : Coin)
    (M : Ledger) : Prop where
  params : L.params? = .ok (some p)
  /-- Without a block before, no time has passed. -/
  amount : subsidy = provision p ctx.height ctx.time (ctx.previous.getD ctx.time)
  minter : M.minter? = .ok (some ⟨p.subsidyHalvingInterval⟩)
  /-- The fee collector has the subsidy, and the supply counts it. -/
  gains : ∀ k, k.HoldsCoins →
    L.Gains M k ((Coins.ofCoin subsidy).gain (.moduleBalance s.feeCollector) k)
  /-- The module that the subsidy passes through has the coins that it had. -/
  passes : s.feeCollector ≠ mintModule → ∀ held, L.moduleBalance mintModule = .ok held →
    held.Proper → M.moduleBalance mintModule = .ok held
  frame : L.Frames M s.issueKeys

/-- What issuing the subsidy did, where it succeeds. -/
lemma issueSubsidy_ok {s : Settings} {ctx : BlockContext} {o : Outages} {L M : Ledger} {i : Issue}
    (h : (issueSubsidy s ctx).runOn o L = (.ok i, M)) :
    ∃ p N ws vs, L.params? = .ok (some p) ∧ i = Issue.compute s ctx p ⟨p.subsidyHalvingInterval⟩ ∧
      N = L.store (.put .minter (⟨p.subsidyHalvingInterval⟩ : Minter)) ∧
      N.mintWrites mintModule i.minted = .ok ws ∧
      (N.apply ws).moduleTransferWrites mintModule s.feeCollector i.minted = .ok vs ∧
      M = (N.apply ws).apply vs := by
  rcases issueSubsidy_cases s ctx o L with
    ⟨e, N, -, h'⟩ | ⟨i', N, hmint, ⟨e, h'⟩ | ⟨vs, hvs, h'⟩⟩ <;>
    rw [h'] at h <;> cases h
  rcases mintSubsidy_cases s ctx o L with
    ⟨e, h'⟩ | ⟨e, m, h'⟩ | ⟨p, m, _, ws, hp, -, -, hi, hws, h'⟩ <;>
    rw [h'] at hmint <;> cases hmint
  exact ⟨p, _, ws, vs, hp, hi, rfl, hws, hvs, rfl⟩

/-- **Issuing the subsidy** changes the ledger in no other way. -/
theorem issueSubsidy_issued {s : Settings} {ctx : BlockContext} {o : Outages} {L M : Ledger}
    {i : Issue} (h : (issueSubsidy s ctx).runOn o L = (.ok i, M)) :
    Issued s ctx L i.params i.provision M := by
  obtain ⟨p, N, ws, vs, hp, hi, hN, hws, hvs, rfl⟩ := issueSubsidy_ok h
  have hstore : L.Frames N [.minter] := hN ▸ L.frames_store (.put .minter _)
  have hmint : N.Frames (N.apply ws) [.moduleBalance mintModule, .supply] :=
    N.frames_apply fun w hw => by simpa using mintWrites_keys hws w hw
  have hsend : (N.apply ws).Frames ((N.apply ws).apply vs)
      [.moduleBalance mintModule, .moduleBalance s.feeCollector] :=
    frames_apply _ fun w hw => by simpa using moduleTransferWrites_keys hvs w hw
  have hcoins (k : Key) (hk : k.HoldsCoins) : N.loadCoins k = L.loadCoins k := by
    refine loadCoins_of_sameEntry (hstore k fun hk' => ?_)
    obtain rfl := List.mem_singleton.1 hk'
    exact hk
  rw [hi]
  refine ⟨hp, rfl, ?_, ?_, ?_, ?_⟩
  · have hkept := (hmint.trans hsend) .minter (by simp)
    rw [minter?, load?_of_sameEntry hkept, hN]
    exact load?_store_self L .minter _
  · intro k hk
    exact .of_before (hcoins k hk) (hi ▸ mint_transfer_gains hws hvs k)
  · intro hne held hheld hproper
    exact mint_transfer_passes hne (.ofCoin _) hws hvs
      ((hcoins (.moduleBalance _) trivial).trans hheld)
      hproper
  · simpa only [h] using issueSubsidy_frames s ctx o L

/-! ### The scheduled mint -/

/-- The keys under which a block writes for what became of its scheduled mint. A new
account takes a number. -/
def ExternalMint.keys : ExternalMint → List Key
  | .applied record transition =>
      [.account record.account, .balance record.account, .supply, .mintRecord record.blockHeight]
        ++ if transition = .created then [.accountCounter] else []
  | _ => []

/-- What the coins under each key grow by through the scheduled mint. -/
def ExternalMint.gain : ExternalMint → Key → String → Nat
  | .applied record _ => record.amount.gain (.balance record.account)
  | _ => fun _ _ => 0

/-- A ledger `L` once the mint `m` is carried out with the parameters `p`: `amount` base
units for `address`. -/
structure Delivered (ctx : BlockContext) (p : Params) (subsidy : Coin) (addressPrefix : String)
    (m : Mint) (record : MintRecord) (transition : Transition) (address : Address)
    (amount : UInt64) (L M : Ledger) : Prop
    extends Screened L ctx.height addressPrefix m address amount where
  /-- The schedule counts whole tokens. -/
  units : (amount.toNat : Int) = m.amount.toInt * unitsPerToken
  reported : record = ⟨ctx.height, m.address, .ofCoin ⟨p.mintDenom, amount⟩, .ofCoin subsidy⟩
  recorded : M.mintRecord? ctx.height = .ok (some record)
  /-- The account takes the step that its balance before the mint asks for. -/
  advanced : ∃ existing balance next,
    L.account? address = .ok existing ∧ L.balance address = .ok balance ∧
    nextAccount existing address balance ctx.time (.ok L.accountCounter) = .ok next ∧
    next.transition = transition ∧ M.account? address = .ok (some next.account)
  numbered : transition = .created → M.accountCounter = Word.next L.accountCounter

/-- An address that reads keeps its text. -/
lemma Address.encoded_of_read {text addressPrefix : String} {a : Address}
    (h : Address.read text addressPrefix = .ok a) : a.encoded = text := by
  obtain ⟨_, -, rfl⟩ := Address.read_eq_ok_iff.1 h
  rfl

/-- **A scheduled mint that is carried out** changes the ledger in no other way. -/
theorem applyScheduled_delivered {ctx : BlockContext} {p : Params} {subsidy : Coin}
    {addressPrefix : String} {m : Mint} {o : Outages} {L M : Ledger} {record : MintRecord}
    {transition : Transition}
    (h : (applyScheduled ctx p (.ofCoin subsidy) addressPrefix m).runOn o L
      = (.ok (record, transition), M)) :
    (∃ address amount,
      Delivered ctx p subsidy addressPrefix m record transition address amount L M) ∧
    (∀ k, k.HoldsCoins → L.Gains M k ((ExternalMint.applied record transition).gain k)) ∧
    L.Frames M (ExternalMint.applied record transition).keys := by
  obtain ⟨_, _, hrun, hends⟩ := applyScheduled_ends ctx p (.ofCoin subsidy) addressPrefix m o L
  cases hrun.symm.trans h
  cases hends with
  | @carriedOut address amount existing held next N _ ws hstepped hrecord hws =>
      have hencoded : next.account.address.encoded = record.account := by
        rw [hstepped.own, Address.encoded_of_read hstepped.reads, hrecord]
      have htake : L.Frames N (if next.transition = .created then [.accountCounter] else []) := by
        rcases hstepped.number with ⟨-, -, rfl⟩ | ⟨-, hcreated, rfl⟩
        · exact .refl _ _
        · rw [if_pos hcreated]
          exact L.frames_reserveNumber
      have hcommit : N.Frames (N.apply ws) [.account record.account, .balance record.account,
          .supply, .mintRecord record.blockHeight] :=
        N.frames_apply fun w hw => by simpa [hencoded] using commitWrites_keys hws w hw
      have hcoins (k : Key) (hk : k.HoldsCoins) : N.loadCoins k = L.loadCoins k := by
        refine loadCoins_of_sameEntry (htake k fun hk' => ?_)
        obtain rfl : k = .accountCounter := by grind
        exact hk
      obtain ⟨hstored, hrecorded⟩ := commitWrites_reads hws
      have hunits := Word.ofInt?_eq_some_iff.1 hstepped.fits
      refine ⟨⟨address, amount, hstepped.toScreened, hunits, hrecord, ?_, ?_, ?_⟩, ?_, ?_⟩
      · rwa [hrecord] at hrecorded ⊢
      · exact ⟨existing, held, next, hstepped.account, hstepped.held, hstepped.advance, rfl,
          hstepped.own ▸ hstored⟩
      · intro hcreated
        rcases hstepped.number with ⟨-, hold, -⟩ | ⟨-, -, rfl⟩
        · exact absurd hcreated hold
        · rw [accountCounter, hcommit .accountCounter (by simp)]
          exact accountCounter_reserveNumber L
      · intro k hk
        refine .of_before (hcoins k hk) ?_
        rw [ExternalMint.gain, ← hencoded]
        exact commitWrites_gains hws hk
      · intro k hk
        refine (htake.trans hcommit) k fun hk' => hk ?_
        grind [ExternalMint.keys]

/-! ### The block -/

/-- The keys under which a finished block writes. -/
def BlockOutcome.keys (s : Settings) (b : BlockOutcome) : List Key :=
  s.issueKeys ++ b.external.keys

/-- What the coins under each key grow by in a finished block: the supply by the subsidy
and by the mint that is applied, the fee collector's by the subsidy, the recipient's by
the mint, and those of all others by nothing. -/
def BlockOutcome.gain (s : Settings) (b : BlockOutcome) (k : Key) (denom : String) : Nat :=
  (Coins.ofCoin b.provision).gain (.moduleBalance s.feeCollector) k denom
    + b.external.gain k denom

/-- A ledger `L` once a block is finished that reports `b`, with the parameters `p` and
the mints of `cache` to come. The fields speak of every entry: those that stand for coins
have grown by `b.gain`, the minter and the entries of a mint that is applied are as said,
and the others are as they were. -/
structure Finished (s : Settings) (ctx : BlockContext) (cache : MintCache) (p : Params)
    (b : BlockOutcome) (L M : Ledger) : Prop where
  params : L.params? = .ok (some p)
  amount : b.provision = provision p ctx.height ctx.time (ctx.previous.getD ctx.time)
  minter : M.minter? = .ok (some ⟨p.subsidyHalvingInterval⟩)
  gains : ∀ k, k.HoldsCoins → L.Gains M k (b.gain s k)
  passes : s.feeCollector ≠ mintModule → ∀ held, L.moduleBalance mintModule = .ok held →
    held.Proper → M.moduleBalance mintModule = .ok held
  delivered : ∀ record transition, b.external = .applied record transition →
    ∃ m address amount, cache.lookup ctx.height = some m ∧
      Delivered ctx p b.provision cache.addressPrefix m record transition address amount L M
  frame : L.Frames M (b.keys s)

/-- A scheduled mint finds what it asks for as the subsidy found it. -/
lemma Delivered.of_issued {s : Settings} {ctx : BlockContext} {p : Params} {subsidy : Coin}
    {addressPrefix : String} {m : Mint} {record : MintRecord} {transition : Transition}
    {address : Address} {amount : UInt64} {L M N : Ledger} (hissued : Issued s ctx L p subsidy M)
    (h : Delivered ctx p subsidy addressPrefix m record transition address amount M N) :
    Delivered ctx p subsidy addressPrefix m record transition address amount L N := by
  have hsame (k : Key) (hk : k ∉ s.issueKeys) : SameEntry k L M := hissued.frame k hk
  have hrecord : M.mintRecord? ctx.height = L.mintRecord? ctx.height :=
    load?_of_sameEntry (hsame (.mintRecord _) (by simp [Settings.issueKeys]))
  have haccount : M.account? address = L.account? address :=
    load?_of_sameEntry (hsame (.account _) (by simp [Settings.issueKeys]))
  have hbalance : M.balance address = L.balance address :=
    loadCoins_of_sameEntry (hsame (.balance _) (by simp [Settings.issueKeys]))
  have hcounter : M.accountCounter = L.accountCounter := by
    rw [accountCounter, hsame .accountCounter (by simp [Settings.issueKeys]), accountCounter]
  refine ⟨⟨hrecord ▸ h.unrecorded, h.reads, h.fits⟩, h.units, h.reported, h.recorded, ?_, ?_⟩
  · rw [← haccount, ← hbalance, ← hcounter]
    exact h.advanced
  · rw [← hcounter]
    exact h.numbered

/-- What became of the scheduled mint comes on top of the subsidy. -/
lemma Issued.finished {s : Settings} {ctx : BlockContext} {cache : MintCache} {p : Params}
    {b : BlockOutcome} {L M N : Ledger} (hissued : Issued s ctx L p b.provision M)
    (hgains : ∀ k, k.HoldsCoins → M.Gains N k (b.external.gain k))
    (hframe : M.Frames N b.external.keys)
    (hdelivered : ∀ record transition, b.external = .applied record transition →
      ∃ m address amount, cache.lookup ctx.height = some m ∧
        Delivered ctx p b.provision cache.addressPrefix m record transition address amount M N) :
    Finished s ctx cache p b L N := by
  have hminter : .minter ∉ b.external.keys := by cases b.external <;> grind [ExternalMint.keys]
  have hmodule : .moduleBalance mintModule ∉ b.external.keys := by
    cases b.external <;> grind [ExternalMint.keys]
  refine ⟨hissued.params, hissued.amount, ?_, ?_, ?_, ?_, hissued.frame.trans hframe⟩
  · rw [minter?, load?_of_sameEntry (hframe .minter hminter)]
    exact hissued.minter
  · exact fun k hk => (hissued.gains k hk).trans (hgains k hk)
  · intro hne held hheld hproper
    rw [moduleBalance, loadCoins_of_sameEntry (hframe _ hmodule)]
    exact hissued.passes hne held hheld hproper
  · intro record transition hexternal
    obtain ⟨m, address, amount, hlookup, h⟩ := hdelivered record transition hexternal
    exact ⟨m, address, amount, hlookup, h.of_issued hissued⟩

/-- **A finished block** changes the ledger in just this way, whatever ledger and cache
it finds. -/
theorem Chain.beginBlock_exact (c : Chain) (s : Settings) (o : Outages) (ctx : BlockContext)
    {outcome : BlockOutcome} (h : (c.beginBlock s o ctx).1 = .ok outcome) :
    ∃ p, Finished s ctx c.cache p outcome c.ledger (c.beginBlock s o ctx).2.ledger := by
  rcases c.beginBlock_cases s o ctx with ⟨e, L, -, hends⟩ | ⟨i, L, hissue, hrest⟩
  · cases hends.result.symm.trans h
  have hissued := issueSubsidy_issued hissue
  have hquiet (external : ExternalMint) (hgain : external.gain = fun _ _ => 0)
      (hnone : ∀ record transition, external ≠ .applied record transition) :
      Finished s ctx c.cache i.params (i.outcome ctx.height external) c.ledger L :=
    hissued.finished (fun k _ => .of_eq rfl fun d => by simp [Issue.outcome, hgain])
      (.refl _ _) fun record transition h => absurd h (hnone record transition)
  refine ⟨i.params, ?_⟩
  rcases hrest with ⟨-, hends⟩ | ⟨m, r, M, hlookup, happly, hends⟩
  · rw [hends.result] at h
    cases h
    rw [hends.ledger]
    exact hquiet .none rfl nofun
  rcases hends with ⟨record, transition, rfl, hends⟩ | ⟨e, rfl, he, hends⟩ | ⟨e, rfl, -, hends⟩ |
    ⟨rfl, hends⟩ <;>
    rw [hends.result] at h <;> cases h <;> rw [hends.ledger]
  · obtain ⟨⟨address, amount, hdelivered⟩, hgains, hframe⟩ := applyScheduled_delivered happly
    refine hissued.finished hgains hframe fun record' transition' h => ?_
    cases h
    exact ⟨m, address, amount, hlookup, hdelivered⟩
  · obtain rfl := applyScheduled_skipped happly he
    exact hquiet (.skipped m.address e) rfl nofun

namespace Chain

/-- What the first block of a new chain reports where a mint of a hundred tokens is
scheduled for it: the mint is applied, to an account that is new. -/
def firstOutcome : BlockOutcome :=
  firstIssue.outcome 1 (.applied
    ⟨1, sampleRecipient, .ofCoin ⟨"ugd", 10000000000⟩, .ofCoin ⟨"ugd", 98010000⟩⟩ .created)

/-- The first block of a new chain is finished with that report, and leaves the ledger that it
asks for. -/
theorem beginBlock_exact_first :
    ((sampleChain 100).beginBlock sampleSettings .none firstBlock).1 = .ok firstOutcome ∧
    ∃ p, Finished sampleSettings firstBlock (sampleCache 100) p firstOutcome genesisLedger
      ((sampleChain 100).beginBlock sampleSettings .none firstBlock).2.ledger := by
  have h : ((sampleChain 100).beginBlock sampleSettings .none firstBlock).1 = .ok firstOutcome := by
    decide +kernel
  exact ⟨h, beginBlock_exact (sampleChain 100) sampleSettings .none firstBlock h⟩

end Chain

end Mintage
