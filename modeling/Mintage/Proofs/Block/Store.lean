import Mathlib.Tactic.Lemma
import Mintage.Block.Store

/-!
How computations run on the ledger.

* `runOn_bind_cases`: a computation followed by another one stops where the first one
  stops, and otherwise goes on from the ledger that the first one leaves.
* `query_cases`, `update_cases`, `put_cases`: a call fails and leaves the ledger as it was,
  or it answers and makes its writes. Which operation of the ledger a call stands for is
  read off the ledger as a store, so these lemmas are about every call at once.
* `Within`: whatever happens, the ledger left behind stands in a given relation to the
  one at the start. It is enough to look at the writes of the single calls
  (`Within.bind`, `Within.update`).
* `Upholds`: from a ledger with a property a computation leads to one with it, and it fails
  only in some of the ways.
-/

namespace Mintage

lemma Except.map_eq_ok_iff {ε α β : Type} {x : Except ε α} {f : α → β} {b : β} :
    x.map f = .ok b ↔ ∃ a, x = .ok a ∧ f a = b := by
  cases x <;> simp [Except.map]

lemma Except.map_eq_error_iff {ε α β : Type} {x : Except ε α} {f : α → β} {e : ε} :
    x.map f = .error e ↔ x = .error e := by
  cases x <;> simp [Except.map]

/-- Just one call is out of order. -/
def Outages.only (call : StoreCall) : Outages := fun c =>
  if c = call then some "out of order" else Option.none

lemma Outages.store_nextAccountNumber (o : Outages) :
    o.store.nextAccountNumber
      = o.serve .nextAccountNumber fun L => .ok (L.accountCounter, L.reserveNumber) := rfl

namespace StoreM

variable {ε α β : Type}

/-! ### Running -/

lemma runOn_bind (m : StoreM ε α) (f : α → StoreM ε β) (o : Outages) (L : Ledger) :
    (m >>= f).runOn o L = match m.runOn o L with
      | (.ok a, M) => (f a).runOn o M
      | (.error e, M) => (.error e, M) := by
  simp only [BlockM.runOn, bind, ReaderT.bind, ExceptT.bind, ExceptT.mk, StateT.bind,
    ExceptT.bindCont]
  rcases m o.store L with ⟨_ | _, M⟩ <;> rfl

lemma runOn_bind_of_ok {m : StoreM ε α} (f : α → StoreM ε β) {o : Outages} {L M : Ledger} {a : α}
    (h : m.runOn o L = (.ok a, M)) : (m >>= f).runOn o L = (f a).runOn o M := by
  rw [runOn_bind, h]

/-- A computation followed by another one stops with the first, or goes on from where
the first one ends. -/
lemma runOn_bind_cases (m : StoreM ε α) (f : α → StoreM ε β) (o : Outages) (L : Ledger) :
    (∃ e M, m.runOn o L = (.error e, M) ∧ (m >>= f).runOn o L = (.error e, M)) ∨
    ∃ a M, m.runOn o L = (.ok a, M) ∧ (m >>= f).runOn o L = (f a).runOn o M := by
  rw [runOn_bind]
  rcases hm : m.runOn o L with ⟨e | a, M⟩
  · exact .inl ⟨e, M, rfl, rfl⟩
  · exact .inr ⟨a, M, rfl, rfl⟩

/-! ### Calls -/

section Calls

variable {c : StoreCall} {wrap : StateError → ε}

/-- A call that the ledger serves fails without a trace, or answers and makes its writes. -/
lemma call_cases (call : BlockStore Ledger → Call Ledger α)
    {op : Ledger → Except StateError (α × List Write)}
    (hcall : ∀ o : Outages, call o.store = o.serve c op) (wrap : StateError → ε) (o : Outages)
    (L : Ledger) :
    (∃ e, (o c = none → op L = .error e) ∧
      (ask wrap call).runOn o L = (.error (.failed (wrap e)), L)) ∨
    ∃ a ws, op L = .ok (a, ws) ∧ (ask wrap call).runOn o L = (.ok a, L.apply ws) := by
  rw [BlockM.runOn, ask, hcall, Outages.serve]
  cases o c with
  | some words => exact .inl ⟨_, by simp, rfl⟩
  | none =>
      cases op L with
      | error e => exact .inl ⟨e, fun _ => rfl, rfl⟩
      | ok r => exact .inr ⟨r.1, r.2, rfl, rfl⟩

/-- A query fails or answers, and writes nothing. -/
lemma query_cases (call : BlockStore Ledger → Call Ledger α) {op : Ledger → Except StateError α}
    (hcall : ∀ o : Outages, call o.store = o.reads c op) (wrap : StateError → ε) (o : Outages)
    (L : Ledger) :
    (∃ e, (o c = none → op L = .error e) ∧
      (ask wrap call).runOn o L = (.error (.failed (wrap e)), L)) ∨
    ∃ a, op L = .ok a ∧ (ask wrap call).runOn o L = (.ok a, L) := by
  rcases call_cases call hcall wrap o L with ⟨e, he, h⟩ | ⟨a, ws, hop, h⟩
  · exact .inl ⟨e, fun ho => Except.map_eq_error_iff.1 (he ho), h⟩
  · obtain ⟨b, hL, hb⟩ := Except.map_eq_ok_iff.1 hop
    cases hb
    exact .inr ⟨a, hL, h⟩

/-- An update fails without a trace, or makes its writes. -/
lemma update_cases (call : BlockStore Ledger → Call Ledger Unit)
    {op : Ledger → Except StateError (List Write)}
    (hcall : ∀ o : Outages, call o.store = o.writes c op) (wrap : StateError → ε) (o : Outages)
    (L : Ledger) :
    (∃ e, (o c = none → op L = .error e) ∧
      (ask wrap call).runOn o L = (.error (.failed (wrap e)), L)) ∨
    ∃ ws, op L = .ok ws ∧ (ask wrap call).runOn o L = (.ok (), L.apply ws) := by
  rcases call_cases call hcall wrap o L with ⟨e, he, h⟩ | ⟨_, ws, hop, h⟩
  · exact .inl ⟨e, fun ho => Except.map_eq_error_iff.1 (he ho), h⟩
  · obtain ⟨vs, hL, hvs⟩ := Except.map_eq_ok_iff.1 hop
    cases hvs
    exact .inr ⟨ws, hL, h⟩

/-- Storing one entry fails only where the call is out of order. -/
lemma put_cases (call : BlockStore Ledger → Call Ledger Unit) {w : Write}
    (hcall : ∀ o : Outages, call o.store = o.puts c w) (wrap : StateError → ε) (o : Outages)
    (L : Ledger) :
    (∃ words, o c = some words ∧
      (ask wrap call).runOn o L = (.error (.failed (wrap (.storage (.stated words)))), L)) ∨
    (o c = none ∧ (ask wrap call).runOn o L = (.ok (), L.store w)) := by
  rw [BlockM.runOn, ask, hcall, Outages.puts, Outages.writes]
  cases ho : o c with
  | some words => exact .inl ⟨words, rfl, by rw [Outages.serve_of_outage ho]⟩
  | none => exact .inr ⟨rfl, by rw [Outages.serve, ho]; rfl⟩

variable {call : BlockStore Ledger → Call Ledger α} {o : Outages} {L : Ledger}

/-- A call that is in order answers and makes its writes as its operation says. -/
lemma runOn_call_of_ok {op : Ledger → Except StateError (α × List Write)}
    (hcall : ∀ o : Outages, call o.store = o.serve c op) {a : α} {ws : List Write}
    (ho : o c = none) (h : op L = .ok (a, ws)) :
    (ask wrap call).runOn o L = (.ok a, L.apply ws) := by
  rcases call_cases call hcall wrap o L with ⟨e, he, -⟩ | ⟨b, vs, hop, hrun⟩
  · cases h.symm.trans (he ho)
  · cases h.symm.trans hop
    exact hrun

/-- A call that is out of order says so, and leaves the ledger as it was. -/
lemma runOn_call_of_outage {op : Ledger → Except StateError (α × List Write)}
    (hcall : ∀ o : Outages, call o.store = o.serve c op) {words : String} (h : o c = some words) :
    (ask wrap call).runOn o L = (.error (.failed (wrap (.storage (.stated words)))), L) := by
  rw [BlockM.runOn, ask, hcall, Outages.serve_of_outage h]

/-- A query that is in order answers with what it reads. -/
lemma runOn_query_of_ok {op : Ledger → Except StateError α}
    (hcall : ∀ o : Outages, call o.store = o.reads c op) {a : α} (ho : o c = none)
    (h : op L = .ok a) : (ask wrap call).runOn o L = (.ok a, L) :=
  runOn_call_of_ok hcall ho (by rw [h]; rfl)

variable {update : BlockStore Ledger → Call Ledger Unit}
  {op : Ledger → Except StateError (List Write)}

/-- An update that is in order makes the writes that its operation yields. -/
lemma runOn_update_of_ok (hcall : ∀ o : Outages, update o.store = o.writes c op)
    {ws : List Write} (ho : o c = none) (h : op L = .ok ws) :
    (ask wrap update).runOn o L = (.ok (), L.apply ws) :=
  runOn_call_of_ok hcall ho (by rw [h]; rfl)

/-- An update that is in order fails where its operation does, and writes nothing then. -/
lemma runOn_update_of_error (hcall : ∀ o : Outages, update o.store = o.writes c op)
    {e : StateError} (ho : o c = none) (h : op L = .error e) :
    (ask wrap update).runOn o L = (.error (.failed (wrap e)), L) := by
  rcases update_cases update hcall wrap o L with ⟨f, hf, hrun⟩ | ⟨vs, hvs, -⟩
  · cases h.symm.trans (hf ho)
    exact hrun
  · cases h.symm.trans hvs

end Calls

/-! ### What a computation may do to the ledger -/

/-- However a computation ends, the ledger it leaves stands in a relation to the one it
started from. -/
def Within (R : Ledger → Ledger → Prop) (m : StoreM ε α) : Prop :=
  ∀ o L, R L (m.runOn o L).2

/-- A relation that a ledger has to itself and that chains. -/
class Chains (R : Ledger → Ledger → Prop) : Prop where
  refl : ∀ L, R L L
  trans : ∀ {L M N}, R L M → R M N → R L N

/-- Keeping a property chains. -/
instance (I : Ledger → Prop) : Chains fun L M => I L → I M := ⟨fun _ => id, fun h h' => h' ∘ h⟩

namespace Within

variable {R : Ledger → Ledger → Prop} [Chains R] {c : StoreCall} {wrap : StateError → ε}

lemma pure (a : α) : Within R (Pure.pure a : StoreM ε α) := fun _ L => Chains.refl L

lemma fail (e : ε) : Within R (StoreM.fail e : StoreM ε α) := fun _ L => Chains.refl L

lemma bind {m : StoreM ε α} {f : α → StoreM ε β} (hm : Within R m) (hf : ∀ a, Within R (f a)) :
    Within R (m >>= f) := fun o L => by
  have hfirst := hm o L
  rcases runOn_bind_cases m f o L with ⟨e, M, hrun, h⟩ | ⟨a, M, hrun, h⟩
  · rw [h]
    rwa [hrun] at hfirst
  · rw [h]
    rw [hrun] at hfirst
    exact Chains.trans hfirst (hf a o M)

lemma call {call : BlockStore Ledger → Call Ledger α}
    {op : Ledger → Except StateError (α × List Write)}
    (hcall : ∀ o : Outages, call o.store = o.serve c op)
    (hop : ∀ {L a ws}, op L = .ok (a, ws) → R L (L.apply ws)) : Within R (ask wrap call) :=
    fun o L => by
  rcases call_cases call hcall wrap o L with ⟨e, -, h⟩ | ⟨a, ws, hL, h⟩
  · rw [h]
    exact Chains.refl L
  · rw [h]
    exact hop hL

lemma query {call : BlockStore Ledger → Call Ledger α} {op : Ledger → Except StateError α}
    (hcall : ∀ o : Outages, call o.store = o.reads c op) : Within R (ask wrap call) :=
  Within.call hcall fun h => by
    obtain ⟨b, -, hb⟩ := Except.map_eq_ok_iff.1 h
    cases hb
    exact Chains.refl _

lemma update {call : BlockStore Ledger → Call Ledger Unit}
    {op : Ledger → Except StateError (List Write)}
    (hcall : ∀ o : Outages, call o.store = o.writes c op)
    (hop : ∀ {L ws}, op L = .ok ws → R L (L.apply ws)) : Within R (ask wrap call) :=
  Within.call hcall fun h => by
    obtain ⟨ws, hL, hws⟩ := Except.map_eq_ok_iff.1 h
    cases hws
    exact hop hL

lemma put {call : BlockStore Ledger → Call Ledger Unit} {w : Write}
    (hcall : ∀ o : Outages, call o.store = o.puts c w) (hw : ∀ L : Ledger, R L (L.store w)) :
    Within R (ask wrap call) :=
  update hcall fun h => by
    cases h
    exact hw _

end Within

/-! ### What a computation upholds -/

/-- From a ledger with a property a computation leads to one with it, however it ends, and
the errors that it fails with are among some of them. -/
def Upholds (I : Ledger → Prop) (P : ε → Prop) (m : StoreM ε α) : Prop :=
  ∀ o L, I L → I (m.runOn o L).2 ∧ ∀ e, (m.runOn o L).1 = .error (.failed e) → P e

namespace Upholds

variable {I : Ledger → Prop} {P : ε → Prop} {c : StoreCall} {wrap : StateError → ε}

lemma pure (a : α) : Upholds I P (Pure.pure a : StoreM ε α) := fun _ _ hL => ⟨hL, nofun⟩

lemma bind {m : StoreM ε α} {f : α → StoreM ε β} (hm : Upholds I P m)
    (hf : ∀ a, Upholds I P (f a)) : Upholds I P (m >>= f) := fun o L hL => by
  have hfirst := hm o L hL
  rcases runOn_bind_cases m f o L with ⟨e, M, hrun, h⟩ | ⟨a, M, hrun, h⟩ <;>
    rw [hrun] at hfirst <;> rw [h]
  · exact ⟨hfirst.1, fun e' he' => hfirst.2 e' (by cases he'; rfl)⟩
  · exact hf a o M hfirst.1

lemma call (hwrap : ∀ e, P (wrap e)) {call : BlockStore Ledger → Call Ledger α}
    {op : Ledger → Except StateError (α × List Write)}
    (hcall : ∀ o : Outages, call o.store = o.serve c op)
    (hop : ∀ {L a ws}, op L = .ok (a, ws) → I L → I (L.apply ws)) : Upholds I P (ask wrap call) :=
    fun o L hL => by
  rcases call_cases call hcall wrap o L with ⟨e, -, h⟩ | ⟨a, ws, hop', h⟩ <;> rw [h]
  · exact ⟨hL, fun e' he' => by cases he'; exact hwrap e⟩
  · exact ⟨hop hop' hL, nofun⟩

lemma query (hwrap : ∀ e, P (wrap e)) {call : BlockStore Ledger → Call Ledger α}
    {op : Ledger → Except StateError α} (hcall : ∀ o : Outages, call o.store = o.reads c op) :
    Upholds I P (ask wrap call) :=
  Upholds.call hwrap hcall fun h hL => by
    obtain ⟨b, -, hb⟩ := Except.map_eq_ok_iff.1 h
    cases hb
    exact hL

lemma update (hwrap : ∀ e, P (wrap e)) {call : BlockStore Ledger → Call Ledger Unit}
    {op : Ledger → Except StateError (List Write)}
    (hcall : ∀ o : Outages, call o.store = o.writes c op)
    (hop : ∀ {L ws}, op L = .ok ws → I L → I (L.apply ws)) : Upholds I P (ask wrap call) :=
  Upholds.call hwrap hcall fun h => by
    obtain ⟨ws, hL, hws⟩ := Except.map_eq_ok_iff.1 h
    cases hws
    exact hop hL

lemma put (hwrap : ∀ e, P (wrap e)) {call : BlockStore Ledger → Call Ledger Unit} {w : Write}
    (hcall : ∀ o : Outages, call o.store = o.puts c w)
    (hw : ∀ {L : Ledger}, I L → I (L.store w)) : Upholds I P (ask wrap call) :=
  update hwrap hcall fun h hL => by
    cases h
    exact hw hL

end Upholds

end StoreM

end Mintage
