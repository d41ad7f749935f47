import Mathlib.Tactic.Lemma

/-!
Runs of a system: a state, and steps that are taken one after the other.

* `history`: every step of a run, with the state it is taken in.
* `run_invariant`, `history_invariant`: what each step preserves, a run preserves.
* `history_induction`: what every step carries over from a run's past to its present
  holds at the end of the run.
* `latest`, `latest_concat`: the most recent answer that the steps of a run give.
* `history_simulation`: two systems that stay related and look alike at every step look
  alike over a run.
* `countP_history_le_one`: an event that needs a mark to be missing, and that leaves the
  mark behind for good, happens at most once in a run.
-/

namespace Mintage

variable {σ ι : Type} {step : σ → ι → σ}

/-- The state at the end of a run. -/
def runAll (step : σ → ι → σ) (s : σ) (l : List ι) : σ :=
  l.foldl step s

/-- The steps of a run, each with the state that it is taken in. -/
def history (step : σ → ι → σ) : σ → List ι → List (σ × ι)
  | _, [] => []
  | s, i :: r => (s, i) :: history step (step s i) r

@[simp] lemma runAll_cons (s : σ) (i : ι) (r : List ι) :
    runAll step s (i :: r) = runAll step (step s i) r := rfl

lemma runAll_append (s : σ) (l r : List ι) :
    runAll step s (l ++ r) = runAll step (runAll step s l) r :=
  List.foldl_append

/-- **What each step preserves**, a run preserves. -/
theorem run_invariant {I : σ → Prop} (hstep : ∀ s i, I s → I (step s i)) {s : σ} (hs : I s)
    (l : List ι) : I (runAll step s l) := by
  induction l generalizing s with
  | nil => exact hs
  | cons i r ih => exact ih (hstep s i hs)

/-- What each step preserves holds wherever a run takes a step. -/
lemma history_invariant {I : σ → Prop} (hstep : ∀ s i, I s → I (step s i)) {s : σ}
    (hs : I s) {l : List ι} {e : σ × ι} (he : e ∈ history step s l) : I e.1 := by
  induction l generalizing s with
  | nil => cases he
  | cons i r ih =>
      rcases List.mem_cons.1 he with rfl | he
      · exact hs
      · exact ih (hstep s i hs) he

/-- **What every step carries over** from the past of a run to the state it leaves holds
at the end of the run. -/
theorem history_induction {I : List (σ × ι) → σ → Prop} {l : List ι}
    (hstep : ∀ past s i, i ∈ l → I past s → I (past ++ [(s, i)]) (step s i)) {s : σ} (hs : I [] s) :
    I (history step s l) (runAll step s l) := by
  have key : ∀ past s, I past s → I (past ++ history step s l) (runAll step s l) := by
    induction l with
    | nil =>
        intro past s hs
        rwa [history, List.append_nil]
    | cons i r ih =>
        intro past s hs
        have hnext := hstep past s i (List.mem_cons_self ..) hs
        have hrest := ih (fun past s j hj => hstep past s j (List.mem_cons_of_mem _ hj)) _ _ hnext
        rwa [List.append_assoc] at hrest
  exact key [] s hs

/-! ### The most recent answer -/

/-- The most recent answer that the steps of a run give to a question. -/
def latest {α : Type} (answer : σ × ι → Option α) (past : List (σ × ι)) : Option α :=
  past.reverse.findSome? answer

/-- The last step's answer counts, and where it gives none, the one before it. -/
@[simp] lemma latest_concat {α : Type} (answer : σ × ι → Option α) (past : List (σ × ι))
    (e : σ × ι) : latest answer (past ++ [e]) = (answer e).or (latest answer past) := by
  rw [latest, List.reverse_concat, List.findSome?_cons]
  cases answer e <;> rfl

/-! ### Two systems side by side -/

/-- **Two systems that stay related** and look alike at every step look alike over a run. -/
theorem history_simulation {τ α : Type} {stepTwin : τ → ι → τ} {R : σ → τ → Prop}
    {view : σ × ι → α} {viewTwin : τ × ι → α}
    (hstep : ∀ s t i, R s t → view (s, i) = viewTwin (t, i) ∧ R (step s i) (stepTwin t i))
    {s : σ} {t : τ} (hs : R s t) (l : List ι) :
    (history step s l).map view = (history stepTwin t l).map viewTwin ∧
      R (runAll step s l) (runAll stepTwin t l) := by
  induction l generalizing s t with
  | nil => exact ⟨rfl, hs⟩
  | cons i r ih =>
      obtain ⟨hview, hnext⟩ := hstep s t i hs
      obtain ⟨hrest, hlast⟩ := ih hnext
      refine ⟨?_, hlast⟩
      rw [history, history, List.map_cons, List.map_cons, hview, hrest]

/-! ### Counting -/

/-- **An event that needs a mark to be missing** and leaves it behind happens at most
once, and not at all where the mark is there from the start. -/
theorem countP_history_le_one (I mark : σ → Prop) {p : σ × ι → Bool}
    (hinv : ∀ s i, I s → I (step s i)) (hkeep : ∀ s i, I s → mark s → mark (step s i))
    (hneeds : ∀ s i, I s → p (s, i) = true → ¬ mark s)
    (hleaves : ∀ s i, I s → p (s, i) = true → mark (step s i)) {s : σ} (hs : I s) (l : List ι) :
    (history step s l).countP p ≤ 1 ∧ (mark s → (history step s l).countP p = 0) := by
  induction l generalizing s with
  | nil => exact ⟨Nat.zero_le 1, fun _ => rfl⟩
  | cons i r ih =>
      obtain ⟨hle, hzero⟩ := ih (hinv s i hs)
      rw [history, List.countP_cons]
      cases hp : p (s, i) with
      | false =>
          simp only [Bool.false_eq_true, if_false, Nat.add_zero]
          exact ⟨hle, fun hm => hzero (hkeep s i hs hm)⟩
      | true =>
          rw [hzero (hleaves s i hs hp)]
          exact ⟨Nat.le_refl 1, fun hm => absurd hm (hneeds s i hs hp)⟩

end Mintage
