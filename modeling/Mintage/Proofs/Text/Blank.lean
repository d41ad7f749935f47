import Mathlib.Data.List.TakeWhile
import Mathlib.Tactic.Lemma
import Mintage.Text.Blank

/-!
Where trimming finds a text.

* `StandsIn`: a text stands in another one with nothing but white space around it.
* `trim_eq_iff`: trimming gives the text that stands there, among those that neither start nor
  end with white space.
-/

namespace Mintage.Text

variable {s t lead trail : List Char}

/-- A text stands in another one: there is nothing but white space around it. -/
def StandsIn (t s : List Char) : Prop :=
  ∃ lead trail, (∀ c ∈ lead, isBlank c) ∧ (∀ c ∈ trail, isBlank c) ∧ s = lead ++ t ++ trail

/-- What is left of a text after trimming stands in it. -/
lemma trim_standsIn (s : List Char) : StandsIn (trim s) s := by
  refine ⟨s.takeWhile isBlank, ((trimStart s).reverse.takeWhile isBlank).reverse,
    fun _ => List.mem_takeWhile_imp, fun c hc => ?_, ?_⟩
  · exact List.mem_takeWhile_imp (List.mem_reverse.1 hc)
  · have hend : trimEnd (trimStart s) ++ ((trimStart s).reverse.takeWhile isBlank).reverse
        = trimStart s := by
      rw [trimEnd, ← List.reverse_append, List.takeWhile_append_dropWhile, List.reverse_reverse]
    rw [List.append_assoc, trim, hend, trimStart, List.takeWhile_append_dropWhile]

lemma trimStart_append (h : ∀ c ∈ lead, isBlank c) (s : List Char) :
    trimStart (lead ++ s) = trimStart s :=
  List.dropWhile_append_of_pos h

lemma trimEnd_append (h : ∀ c ∈ trail, isBlank c) (s : List Char) :
    trimEnd (s ++ trail) = trimEnd s := by
  rw [trimEnd, List.reverse_append, List.dropWhile_append_of_pos, trimEnd]
  exact fun c hc => h c (List.mem_reverse.1 hc)

/-- **Trimming** gives the text that stands between the white space, where that text itself
starts and ends with something else. -/
theorem trim_eq_iff (hfirst : ∀ c ∈ t.head?, isBlank c = false)
    (hlast : ∀ c ∈ t.getLast?, isBlank c = false) : trim s = t ↔ StandsIn t s := by
  constructor
  · rintro rfl
    exact trim_standsIn s
  · rintro ⟨lead, trail, hlead, htrail, rfl⟩
    cases t with
    | nil =>
        have hnothing : trimStart trail = [] := by
          rw [← trail.append_nil, trimStart_append htrail]
          rfl
        rw [List.append_nil, trim, trimStart_append hlead, hnothing]
        rfl
    | cons x r =>
        have hstart (u : List Char) : trimStart (x :: u) = x :: u :=
          List.dropWhile_cons_of_neg (by simp [hfirst x rfl])
        calc trim (lead ++ x :: r ++ trail)
            = trimEnd (trimStart (x :: (r ++ trail))) := by
              rw [trim, List.append_assoc, trimStart_append hlead, List.cons_append]
          _ = trimEnd (x :: r ++ trail) := by rw [hstart, List.cons_append]
          _ = trimEnd (x :: r) := trimEnd_append htrail _
          _ = trim (x :: r) := by rw [trim, hstart]
          _ = x :: r := trim_eq_self hfirst hlast

end Mintage.Text
