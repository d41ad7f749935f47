import Mintage.Proofs.Block.Scheduled
import Mintage.Proofs.Schedule.Cache

/-!
Blocks over stores of any kind. What a block returns and what it does to the cache does
not depend on how its store works: the calls may answer, fail and change the store as
they like.

* `BlockM.Raises`: on whatever store a computation runs, its errors have a property. It is
  enough to look at the errors of the single calls (`Raises.bind`, `Raises.ask`).
* `issueSubsidy_raises`: whatever goes wrong before the scheduled mint is fatal.
* `Chain.beginBlock_disciplined`: a block that returns an error returns a fatal one and
  leaves the cache as it was; a finished one leaves just the mints above it.
-/

namespace Mintage

/-! ### What goes wrong -/

section

variable {σ α β : Type}

/-- On whatever store it runs, the errors of a computation have a property. -/
def BlockM.Raises (P : MintError → Prop) (m : MintM σ α) : Prop :=
  ∀ st x e y, m st x = (.error (.failed e), y) → P e

namespace BlockM.Raises

variable {P : MintError → Prop}

lemma pure (a : α) : Raises P (Pure.pure a : MintM σ α) := fun _ _ _ _ h => by cases h

lemma fail {e : MintError} (he : P e) : Raises P (StoreM.fail e : MintM σ α) := by
  intro st x e' y h
  cases h
  exact he

lemma bind {m : MintM σ α} {f : α → MintM σ β} (hm : Raises P m) (hf : ∀ a, Raises P (f a)) :
    Raises P (m >>= f) := by
  intro st x e y h
  change ExceptT.bindCont (fun a => f a st) (m st x).1 (m st x).2 = _ at h
  rcases hx : m st x with ⟨e' | a, z⟩
  · rw [hx] at h
    cases h
    exact hm st x e z hx
  · rw [hx] at h
    exact hf a st z e y h

lemma ask {wrap : StateError → MintError} (hwrap : ∀ e, P (wrap e))
    (call : BlockStore σ → Call σ α) : Raises P (StoreM.ask wrap call) := by
  intro st x e y h
  rw [StoreM.ask] at h
  rcases hx : call st x with ⟨e' | a, z⟩
  · rw [hx] at h
    cases h
    exact hwrap e'
  · rw [hx] at h
    cases h

lemma existing {kind : EntryKind} {m : MintM σ (Option α)} (hm : Raises P m)
    (habsent : P (.store (.storage (.cause kind)))) : Raises P (MintM.existing kind m) := by
  refine hm.bind fun a => ?_
  cases a with
  | none => exact fail habsent
  | some a => exact pure a

lemma check (hP : ∀ f : ParameterFault, P (.invalidParameter (.cause f)))
    (r : Except ParameterFault Unit) : Raises P (MintM.check r : MintM σ Unit) := by
  cases r with
  | error f => exact fail (hP f)
  | ok u => exact pure u

end BlockM.Raises

open BlockM

/-- **Whatever goes wrong** before the subsidy is with the fee collector aborts the block:
it is about the parameters, or comes from the store or the bank. -/
theorem issueSubsidy_raises (s : Settings) (ctx : BlockContext) :
    Raises (fun e => e.isFatal = true) (issueSubsidy s ctx : MintM σ Issue) := by
  have hstore (e : StateError) : (MintError.store e).isFatal = true := rfl
  have hbank (e : StateError) : (MintError.bank e).isFatal = true := rfl
  have hparameter (f : ParameterFault) :
      (MintError.invalidParameter (.cause f)).isFatal = true := rfl
  have hparams : Raises (fun e => e.isFatal = true) (MintM.params : MintM σ Params) :=
    (Raises.existing (.ask hstore _) (hstore _)).bind fun p =>
      (Raises.check hparameter _).bind fun _ => .pure p
  have hminter : Raises (fun e => e.isFatal = true) (MintM.minter : MintM σ Minter) :=
    .existing (.ask hstore _) (hstore _)
  have hmint : Raises (fun e => e.isFatal = true) (mintSubsidy s ctx : MintM σ Issue) := by
    refine hparams.bind fun params => hminter.bind fun minter => ?_
    exact (Raises.ask hstore _).bind fun _ => (Raises.ask hbank _).bind fun _ => .pure _
  exact hmint.bind fun i => (Raises.ask hbank _).bind fun _ => .pure i

end

/-! ### What becomes of the cache -/

/-- What a block owes to the cache that it finds, by what it returns. -/
inductive Disciplined (height : UInt64) (before : MintCache) :
    MintCache → Except (Stop MintError) BlockOutcome → Prop where
  /-- An error is one that aborts the block, and the cache is as it was. -/
  | failed {e : MintError} (fatal : e.isFatal = true) :
      Disciplined height before before (.error (.failed e))
  | crashed : Disciplined height before before (.error .crashed)
  /-- The last finished height is that of the block, unless a higher one was. The mints
  above it are kept, and no others. -/
  | finished {after : MintCache} {last : UInt64} {outcome : BlockOutcome}
      (processed : after.processedHeight? = some last)
      (raised : last = before.processedHeight?.elim height fun previous => max previous height)
      (kept : ∀ k, after.mints.get? k = if last < k then before.mints.get? k else none) :
      Disciplined height before after (.ok outcome)

lemma MintCache.finish_disciplined (c : MintCache) {height : UInt64}
    (hheight : height.toNat + 1 < UInt64.size) (outcome : BlockOutcome) :
    Disciplined height c (c.finish height) (.ok outcome) := by
  have hlast := c.processedHeight?_markProcessed hheight
  exact .finished hlast rfl fun k => (c.markProcessed height).get?_prune_of_processed hlast k

/-- A block over a store keeps to that: what aborts it leaves before the height is noted. -/
lemma BlockStore.disciplined {σ : Type} (st : BlockStore σ) (s : Settings) {ctx : BlockContext}
    (hheight : ctx.height.toNat + 1 < UInt64.size) (x : σ) (cache : MintCache) :
    Disciplined ctx.height cache (st.beginBlock s ctx x cache).cache
      (st.beginBlock s ctx x cache).result := by
  have hfinish := cache.finish_disciplined hheight
  rw [beginBlock]
  rcases hissue : issueSubsidy s ctx st x with ⟨(e | _) | i, y⟩
  · exact .failed (issueSubsidy_raises s ctx st x e y hissue)
  · exact .crashed
  cases cache.lookup ctx.height with
  | none => exact hfinish _
  | some m =>
      rcases happly : applyScheduled ctx i.params i.minted cache.addressPrefix m st y with
        ⟨(e | _) | ⟨record, transition⟩, z⟩ <;>
        simp only [happly]
      · split
        · next hfatal => exact .failed hfatal
        · exact hfinish _
      · exact .crashed
      · exact hfinish _

/-- **Beginning a block**, over a store of any kind or over a ledger of which some calls
are out of order, and below the greatest height. What it returns as an error aborts the
block and leaves the cache as it was. A finished block raises the last finished height to
its own, and leaves just the mints above, unchanged. -/
theorem Chain.beginBlock_disciplined (s : Settings) (ctx : BlockContext)
    (hheight : ctx.height.toNat + 1 < UInt64.size) :
    (∀ (σ : Type) (st : BlockStore σ) (x : σ) (cache : MintCache),
      Disciplined ctx.height cache (st.beginBlock s ctx x cache).cache
        (st.beginBlock s ctx x cache).result) ∧
    ∀ (c : Chain) (o : Outages),
      Disciplined ctx.height c.cache (c.beginBlock s o ctx).2.cache (c.beginBlock s o ctx).1 := by
  exact ⟨fun σ st x cache => st.disciplined s hheight x cache,
    fun c o => o.store.disciplined s hheight c.ledger c.cache⟩

/-- The first block of a new chain is finished; where the records cannot be read, it is
aborted. -/
theorem Chain.beginBlock_disciplined_first :
    firstBlock.height.toNat + 1 < UInt64.size ∧
    ((sampleChain 100).beginBlock sampleSettings .none firstBlock).1.isOk = true ∧
    Disciplined firstBlock.height (sampleCache 100)
      ((sampleChain 100).beginBlock sampleSettings .none firstBlock).2.cache
      ((sampleChain 100).beginBlock sampleSettings .none firstBlock).1 ∧
    ((sampleChain 100).beginBlock sampleSettings (.only .getMintRecord) firstBlock).1.isOk = false ∧
    Disciplined firstBlock.height (sampleCache 100)
      ((sampleChain 100).beginBlock sampleSettings (.only .getMintRecord) firstBlock).2.cache
      ((sampleChain 100).beginBlock sampleSettings (.only .getMintRecord) firstBlock).1 := by
  have hheight : firstBlock.height.toNat + 1 < UInt64.size := by decide
  obtain ⟨-, h⟩ := beginBlock_disciplined sampleSettings firstBlock hheight
  exact ⟨hheight, by decide +kernel, h (sampleChain 100) .none, by decide +kernel,
    h (sampleChain 100) (.only .getMintRecord)⟩

end Mintage
