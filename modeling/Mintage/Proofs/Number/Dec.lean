import Mintage.Number.Dec
import Mintage.Proofs.Text.Digits

/-!
What fits a word of 128 bits, and the canonical text of a decimal, which is read back as that
decimal.

* `fitsWord_natCast`, `fitsWord_tdiv`: a number below 2¹²⁷ fits, and so do its quotients.
* `readUnits?_text`: the whole part, the point and 18 places give the count of units.
* `ofString?_text`: with its sign, for every decimal.
-/

namespace Mintage.Dec

/-! ### Words of 128 bits -/

lemma fitsWord_iff {n : ℤ} : fitsWord n ↔ -(bound : ℤ) ≤ n ∧ n < bound :=
  decide_eq_true_iff

lemma fitsWord_natCast {n : ℕ} (h : n < bound) : fitsWord n := by
  rw [fitsWord_iff]
  omega

/-- The quotient of a number that fits, whatever it is divided by, fits too. -/
lemma fitsWord_tdiv {n : ℕ} (h : n < bound) (m : ℤ) : fitsWord ((n : ℤ).tdiv m) := by
  have hle := Int.natAbs_tdiv_le_natAbs n m
  rw [fitsWord_iff]
  omega

/-! ### Text -/

lemma scale_pos : 0 < scale := by decide

/-- The whole part, a point and 18 places stand for their count of units. -/
lemma readUnits?_text (n : Nat) :
    readUnits? (Text.digits (n / scale) ++ '.' :: Text.paddedDigits places (n % scale))
      = some n := by
  have hsplit : Text.splitAt? '.'
    (Text.digits (n / scale) ++ '.' :: Text.paddedDigits places (n % scale))
      = some (Text.digits (n / scale), Text.paddedDigits places (n % scale)) :=
    Text.splitAt?_eq_some_iff.2 ⟨rfl, Text.not_mem_digits (by decide)⟩
  have hlength : (Text.paddedDigits places (n % scale)).length = places :=
    Text.length_paddedDigits (by decide) (Nat.mod_lt _ scale_pos)
  rw [readUnits?, hsplit]
  simp only [hlength, Nat.le_refl, if_true, Text.readNat?_digits, Text.readNat?_paddedDigits,
    Nat.sub_self]
  simp only [Option.bind_eq_bind, Option.bind_some, Option.pure_def, Option.some.injEq]
  rw [show Nat.pow 10 0 = 1 from rfl, Nat.mul_one, Nat.mul_comm, Nat.div_add_mod]

/-- The canonical text starts with a minus sign or a digit and ends with a digit, so
nothing is trimmed. -/
lemma trim_chars (d : Dec) : Text.trim d.chars = d.chars := by
  have hdigits := Nat.toDigits_ne_nil (n := d.raw.natAbs / scale) (b := 10)
  refine Text.trim_eq_self (fun c hc => ?_) (fun c hc => ?_)
  · by_cases hneg : d.raw < 0
    · obtain rfl : '-' = c := by simpa [chars, hneg] using hc
      decide
    · cases hw : Text.digits (d.raw.natAbs / scale) with
      | nil => exact absurd hw hdigits
      | cons x r =>
          obtain rfl : x = c := by simpa [chars, hneg, hw] using hc
          exact Text.isBlank_of_isDigit (Text.isDigit_of_mem_digits (hw ▸ List.mem_cons_self ..))
  · have hmem : c ∈ Text.paddedDigits places (d.raw.natAbs % scale) := by
      have hne := Text.paddedDigits_ne_nil places (d.raw.natAbs % scale)
      rw [chars, List.getLast?_append, List.getLast?_cons, List.getLast?_eq_some_getLast hne] at hc
      obtain rfl : _ = c := by simpa using hc
      exact List.getLast_mem hne
    exact Text.isBlank_of_isDigit (Text.isDigit_of_mem_paddedDigits hmem)

lemma ofRaw?_raw (d : Dec) : ofRaw? d.raw = some d := dif_pos d.raw_lt

/-- Units behind a minus sign count downwards. -/
lemma read?_minus {s body : List Char} {u : ℕ} (htrim : Text.trim s = '-' :: body)
    (hread : readUnits? body = some u) : read? s = ofRaw? (-u) := by
  rw [read?, htrim]
  simp only [hread, Option.bind_eq_bind, Option.bind_some]

lemma read?_plain {s body : List Char} {u : ℕ} (htrim : Text.trim s = body)
    (hbody : ∀ r, body ≠ '-' :: r) (hread : readUnits? body = some u) : read? s = ofRaw? u := by
  rw [read?, htrim]
  split
  · exact absurd rfl (hbody _)
  · simp only [hread, Option.bind_eq_bind, Option.bind_some]

/-- Digits do not start with a minus sign, whatever follows them. -/
lemma digits_append_ne_minus {w : List Char} (hne : w ≠ []) (hw : ∀ c ∈ w, c.isDigit)
    (s r : List Char) : w ++ s ≠ '-' :: r := by
  intro h
  obtain ⟨x, v, rfl⟩ := List.exists_cons_of_ne_nil hne
  obtain rfl : x = '-' := (List.cons.inj h).1
  exact absurd (hw '-' (List.mem_cons_self ..)) (by decide)

/-- **The canonical text of a decimal is read back as that decimal.** -/
theorem ofString?_text (d : Dec) : ofString? d.text = some d := by
  rw [ofString?, text, String.toList_ofList]
  have hread := readUnits?_text d.raw.natAbs
  have htrim := d.trim_chars
  by_cases hneg : d.raw < 0
  · have habs : -(d.raw.natAbs : Int) = d.raw := by omega
    have hchars : Text.trim d.chars = '-' :: (Text.digits (d.raw.natAbs / scale)
        ++ '.' :: Text.paddedDigits places (d.raw.natAbs % scale)) := by
      rw [htrim]
      simp [chars, hneg]
    rw [read?_minus hchars hread, habs, ofRaw?_raw]
  · have habs : (d.raw.natAbs : Int) = d.raw := by omega
    have hchars : Text.trim d.chars = Text.digits (d.raw.natAbs / scale)
        ++ '.' :: Text.paddedDigits places (d.raw.natAbs % scale) := by
      rw [htrim]
      simp [chars, hneg]
    have hplain := digits_append_ne_minus Nat.toDigits_ne_nil
      (fun _ => Text.isDigit_of_mem_digits (n := d.raw.natAbs / scale))
      ('.' :: Text.paddedDigits places (d.raw.natAbs % scale))
    rw [read?_plain hchars hplain hread, habs, ofRaw?_raw]

end Mintage.Dec
