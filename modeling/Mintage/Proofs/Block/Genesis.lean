import Mintage.Block.Genesis
import Mintage.Proofs.Block.Store

/-!
What writing the genesis and the parameters does to the ledger: nothing but the entries
of the minter and of the parameters are written, whichever of the calls fail, and nothing
at all where a check fails.
-/

namespace Mintage

/-- The minter of a new chain is in order, so that its genesis is checked for the parameters. -/
lemma Genesis.validate_initial (p : Params) :
    (Genesis.mk Minter.initial p).validate = p.validate := by
  have hminter : Minter.initial.validate = .ok () := rfl
  rw [validate]
  rcases p.validate with f | ⟨⟩
  · rfl
  · exact hminter

namespace MintM

open StoreM

/-! ### Checks -/

section Check

variable {α : Type} {r : Except ParameterFault Unit}

/-- Past a check that succeeds, a computation goes on. -/
lemma check_bind_of_ok {σ : Type} (h : r = .ok ()) (k : Unit → MintM σ α) :
    (check r >>= k) = k () := by
  rw [h, check, pure_bind]

/-- A check that fails stops a computation with the fault. -/
lemma runOn_check_bind_of_error {f : ParameterFault} (h : r = .error f)
    (k : Unit → MintM Ledger α)
    (o : Outages) (L : Ledger) :
    (check r >>= k).runOn o L = (.error (.failed (.invalidParameter (.cause f))), L) := by
  rw [h]
  rfl

/-- Parameters with a fault are not stored. -/
lemma runOn_setParams_of_error {p : Params} {f : ParameterFault} (h : p.validate = .error f)
    (o : Outages) (L : Ledger) :
    (setParams p).runOn o L = (.error (.failed (.invalidParameter (.cause f))), L) :=
  runOn_check_bind_of_error h _ o L

/-- A genesis with a fault is not written. -/
lemma runOn_initGenesis_of_error {g : Genesis} {f : ParameterFault} (h : g.validate = .error f)
    (o : Outages) (L : Ledger) :
    (initGenesis g).runOn o L = (.error (.failed (.invalidParameter (.cause f))), L) :=
  runOn_check_bind_of_error h _ o L

/-- With every call in order, usable parameters are stored. -/
lemma runOn_setParams {p : Params} (h : p.validate = .ok ()) (L : Ledger) :
    (setParams p).runOn .none L = (.ok (), L.store (.put .params p)) := by
  rw [setParams, check_bind_of_ok h]
  rfl

/-- With every call in order, a genesis without a fault is written. -/
lemma runOn_initGenesis {g : Genesis} (h : g.validate = .ok ()) (L : Ledger) :
    (initGenesis g).runOn .none L
      = (.ok (), L.apply [.put .minter g.minter, .put .params g.params]) := by
  rw [initGenesis, check_bind_of_ok h]
  rfl

end Check

/-! ### What is written -/

variable {R : Ledger → Ledger → Prop} [Chains R]

lemma check_within (r : Except ParameterFault Unit) : Within R (check r) := by
  cases r with
  | ok u => exact .pure ()
  | error f => exact .fail _

lemma writeMinter_within (hminter : ∀ (L : Ledger) (m : Minter), R L (L.store (.put .minter m)))
    (wrap : StateError → MintError) (m : Minter) : Within R (StoreM.setMinter wrap m) :=
  .put (fun _ => rfl) (hminter · m)

lemma writeParams_within (hparams : ∀ (L : Ledger) (p : Params), R L (L.store (.put .params p)))
    (wrap : StateError → MintError) (p : Params) : Within R (StoreM.setParams wrap p) :=
  .put (fun _ => rfl) (hparams · p)

lemma setParams_within (hparams : ∀ (L : Ledger) (p : Params), R L (L.store (.put .params p)))
    (p : Params) : Within R (setParams p) :=
  (check_within _).bind fun _ => writeParams_within hparams _ p

/-- **Writing a genesis** respects whatever writing the minter and writing the
parameters respect. -/
theorem initGenesis_within (hminter : ∀ (L : Ledger) (m : Minter), R L (L.store (.put .minter m)))
    (hparams : ∀ (L : Ledger) (p : Params), R L (L.store (.put .params p))) (g : Genesis) :
    Within R (initGenesis g) :=
  (check_within _).bind fun _ => (writeMinter_within hminter _ _).bind fun _ =>
    writeParams_within hparams _ _

/-- **Ensuring a genesis** respects it too. -/
theorem ensureGenesis_within (hminter : ∀ (L : Ledger) (m : Minter), R L (L.store (.put .minter m)))
    (hparams : ∀ (L : Ledger) (p : Params), R L (L.store (.put .params p))) (p : Params) :
    Within R (ensureGenesis p) := by
  refine Within.bind (.query fun _ => rfl) fun stored => ?_
  cases stored with
  | none => exact (initGenesis_within hminter hparams _).bind fun _ => .pure _
  | some q =>
      show Within R (if q = p then _ else _)
      split
      · exact .pure _
      · exact (setParams_within hparams p).bind fun _ => .pure _

end MintM

end Mintage
