import Mathlib.Algebra.Order.Field.Rat
import Mathlib.Algebra.Order.Ring.Abs
import Mathlib.Tactic.FieldSimp
import Mathlib.Tactic.Ring
import Mintage.Proofs.Number.Dec
import Mintage.Proofs.Text.Blank

/-!
Which texts stand for a decimal, and for which one.

* `Numeral`: an optional minus sign, one or more digits, and up to 18 more behind a point.
  Its `value` is the rational number that it denotes.
* `ofString?_of_standsIn`: a text with a numeral in it is read as what the numeral denotes,
  where that fits. `exists_standsIn`: nothing else is read.
* `reading_exact`: both together, and with them that writing is undone by reading.
-/

namespace Mintage.Dec

/-- A decimal numeral. Without digits behind the point there is no point. -/
structure Numeral where
  negative : Bool
  whole : List Char
  frac : List Char
  whole_ne_nil : whole ≠ []
  whole_digits : ∀ c ∈ whole, c.isDigit
  frac_digits : ∀ c ∈ frac, c.isDigit
  frac_length : frac.length ≤ 18

namespace Numeral

/-- The numeral without its sign. -/
def body (n : Numeral) : List Char :=
  n.whole ++ if n.frac = [] then [] else '.' :: n.frac

/-- The numeral as it is written. -/
def chars (n : Numeral) : List Char :=
  if n.negative then '-' :: n.body else n.body

/-- The number that a numeral denotes, but for its sign. -/
def magnitude (n : Numeral) : ℚ :=
  Nat.ofDigitChars 10 n.whole 0 + Nat.ofDigitChars 10 n.frac 0 / 10 ^ n.frac.length

/-- The number that a numeral denotes. -/
def value (n : Numeral) : ℚ :=
  if n.negative then -n.magnitude else n.magnitude

/-! ### Units -/

/-- The units of 10⁻¹⁸ that a numeral counts, but for its sign. -/
def units (n : Numeral) : ℕ :=
  Nat.ofDigitChars 10 n.whole 0 * 10 ^ 18
    + Nat.ofDigitChars 10 n.frac 0 * 10 ^ (18 - n.frac.length)

/-- The units that a numeral counts. -/
def raw (n : Numeral) : ℤ :=
  if n.negative then -n.units else n.units

/-- The places behind the point leave no part of a unit over. -/
lemma units_eq (n : Numeral) : (n.units : ℚ) = n.magnitude * 10 ^ 18 := by
  have hpow : (10 : ℚ) ^ 18 = 10 ^ n.frac.length * 10 ^ (18 - n.frac.length) := by
    rw [← pow_add, Nat.add_sub_cancel' n.frac_length]
  have hfrac : (Nat.ofDigitChars 10 n.frac 0 / 10 ^ n.frac.length : ℚ) * 10 ^ 18
      = Nat.ofDigitChars 10 n.frac 0 * 10 ^ (18 - n.frac.length) := by
    rw [hpow]
    field_simp
  rw [magnitude, add_mul, hfrac, units]
  push_cast
  rfl

/-- A numeral counts its value in units of 10⁻¹⁸. -/
lemma raw_eq (n : Numeral) : (n.raw : ℚ) = n.value * 10 ^ 18 := by
  rw [raw, value]
  split
  · push_cast
    rw [n.units_eq, neg_mul]
  · push_cast
    rw [n.units_eq]

/-! ### Reading -/

/-- Read without its sign, a numeral gives its units. -/
lemma readUnits?_body (n : Numeral) : readUnits? n.body = some n.units := by
  have hwhole : Text.readNat? n.whole = some (Nat.ofDigitChars 10 n.whole 0) :=
    Text.readNat?_eq_some_iff.2 ⟨n.whole_ne_nil, n.whole_digits, rfl⟩
  have hpoint : '.' ∉ n.whole := fun h => absurd (n.whole_digits _ h) (by decide)
  by_cases hfrac : n.frac = []
  · have hsplit : Text.splitAt? '.' n.whole = none := Text.splitAt?_eq_none hpoint
    simp [body, readUnits?, hfrac, hsplit, hwhole, units, scale, places]
  · have hsplit : Text.splitAt? '.' (n.whole ++ '.' :: n.frac) = some (n.whole, n.frac) :=
      Text.splitAt?_eq_some_iff.2 ⟨rfl, hpoint⟩
    have hplaces : Text.readNat? n.frac = some (Nat.ofDigitChars 10 n.frac 0) :=
      Text.readNat?_eq_some_iff.2 ⟨hfrac, n.frac_digits, rfl⟩
    rw [body, if_neg hfrac, readUnits?, hsplit]
    simp [hwhole, hplaces, places, scale, units, n.frac_length]

/-- Every body that is read is that of a numeral, with or without a sign. -/
lemma exists_body {s : List Char} {u : ℕ} (h : readUnits? s = some u) (negative : Bool) :
    ∃ n : Numeral, n.negative = negative ∧ n.body = s := by
  rw [readUnits?] at h
  cases hsplit : Text.splitAt? '.' s with
  | none =>
      rw [hsplit] at h
      obtain ⟨w, hw, -⟩ := Option.map_eq_some_iff.1 h
      have hdenotes := Text.readNat?_eq_some_iff.1 hw
      have hnothing : ∀ c ∈ ([] : List Char), c.isDigit := by simp
      exact ⟨⟨negative, s, [], hdenotes.nonempty, hdenotes.digits, hnothing, Nat.zero_le _⟩, rfl,
        s.append_nil⟩
  | some parts =>
      obtain ⟨whole, frac⟩ := parts
      rw [hsplit] at h
      obtain ⟨rfl, -⟩ := Text.splitAt?_eq_some_iff.1 hsplit
      dsimp only at h
      split at h
      · next hlength =>
          obtain ⟨w, hw, h⟩ := Option.bind_eq_some_iff.1 h
          obtain ⟨f, hf, -⟩ := Option.bind_eq_some_iff.1 h
          have hwhole := Text.readNat?_eq_some_iff.1 hw
          have hfrac := Text.readNat?_eq_some_iff.1 hf
          refine ⟨⟨negative, whole, frac, hwhole.nonempty, hwhole.digits, hfrac.digits, hlength⟩,
            rfl, ?_⟩
          rw [body, if_neg hfrac.nonempty]
      · cases h

/-- There is no white space in a numeral. -/
lemma isBlank_of_mem_chars {n : Numeral} {c : Char} (h : c ∈ n.chars) :
    Text.isBlank c = false := by
  have hbody (hc : c ∈ n.body) : Text.isBlank c = false := by
    rcases List.mem_append.1 hc with hwhole | hrest
    · exact Text.isBlank_of_isDigit (n.whole_digits c hwhole)
    · split at hrest
      · cases hrest
      · rcases List.mem_cons.1 hrest with rfl | hfrac
        · decide
        · exact Text.isBlank_of_isDigit (n.frac_digits c hfrac)
  rw [chars] at h
  split at h
  · rcases List.mem_cons.1 h with rfl | hc
    · decide
    · exact hbody hc
  · exact hbody h

/-- **A text with a numeral in it** is read as the count of units that the numeral stands
for, where that fits. -/
theorem ofString?_of_standsIn {n : Numeral} {s : String} (h : Text.StandsIn n.chars s.toList) :
    ofString? s = ofRaw? n.raw := by
  have htrim : Text.trim s.toList = n.chars := by
    refine (Text.trim_eq_iff (fun c hc => ?_) fun c hc => ?_).2 h
    · exact isBlank_of_mem_chars (List.mem_of_mem_head? hc)
    · exact isBlank_of_mem_chars (List.mem_of_mem_getLast? hc)
  rw [ofString?]
  by_cases hneg : n.negative
  · rw [chars, if_pos hneg] at htrim
    rw [read?_minus htrim n.readUnits?_body, raw, if_pos hneg]
  · rw [chars, if_neg hneg] at htrim
    have hplain := digits_append_ne_minus n.whole_ne_nil n.whole_digits
      (if n.frac = [] then [] else '.' :: n.frac)
    rw [read?_plain htrim hplain n.readUnits?_body, raw, if_neg hneg]

/-- **Nothing but numerals is read**, with white space around them. -/
theorem exists_standsIn {s : String} {d : Dec} (h : ofString? s = some d) :
    ∃ n : Numeral, Text.StandsIn n.chars s.toList := by
  have hstands := Text.trim_standsIn s.toList
  rw [ofString?, read?] at h
  split at h
  · next body htrim =>
      obtain ⟨u, hu, -⟩ := Option.bind_eq_some_iff.1 h
      obtain ⟨n, hneg, rfl⟩ := exists_body hu true
      exact ⟨n, by rwa [chars, if_pos hneg, ← htrim]⟩
  · obtain ⟨u, hu, -⟩ := Option.bind_eq_some_iff.1 h
    obtain ⟨n, hneg, hbody⟩ := exists_body hu false
    exact ⟨n, by rwa [chars, hneg, hbody]⟩

end Numeral

/-! ### Range -/

lemma ofRaw?_eq_some_iff {raw : ℤ} {d : Dec} : ofRaw? raw = some d ↔ d.raw = raw := by
  constructor
  · intro h
    rw [ofRaw?] at h
    split at h
    · rw [← Option.some_inj.1 h]
    · cases h
  · rintro rfl
    exact ofRaw?_raw d

/-- A count of units fits where it stays below 2¹²⁷ on either side. -/
lemma isSome_ofRaw?_iff {raw : ℤ} : (ofRaw? raw).isSome ↔ |(raw : ℚ)| ≤ 2 ^ 127 - 1 := by
  have hfits : (ofRaw? raw).isSome ↔ raw.natAbs < bound := by
    rw [ofRaw?]
    split <;> simp [*]
  have hbound : bound = 2 ^ 127 := by decide
  have hcast : |(raw : ℚ)| ≤ 2 ^ 127 - 1 ↔ |raw| ≤ 2 ^ 127 - 1 := by
    rw [← Int.cast_abs]
    exact_mod_cast Iff.rfl
  rw [hfits, hcast, hbound, Int.abs_eq_natAbs]
  omega

/-- **Reading is exact.** A text is read just where there is a numeral in it, with nothing but
white space around it, that stays below 2¹²⁷ in units of 10⁻¹⁸; the count of units is then
exactly what the numeral denotes. Every decimal is read back from its canonical text, and so
two texts are read as the same decimal just where what is read is written alike. -/
theorem reading_exact (s : String) :
    ((ofString? s).isSome ↔
      ∃ n : Numeral, Text.StandsIn n.chars s.toList ∧ |n.value| * 10 ^ 18 ≤ 2 ^ 127 - 1) ∧
    (∀ n : Numeral, Text.StandsIn n.chars s.toList →
      ∀ d, ofString? s = some d ↔ (d.raw : ℚ) = n.value * 10 ^ 18) ∧
    (∀ d : Dec, ofString? d.text = some d) ∧
    ∀ t d e, ofString? s = some d → ofString? t = some e → (d = e ↔ d.text = e.text) := by
  have habs (n : Numeral) : |n.value| * 10 ^ 18 = |(n.raw : ℚ)| := by
    rw [n.raw_eq, abs_mul, abs_of_pos (by norm_num : (0 : ℚ) < 10 ^ 18)]
  refine ⟨⟨fun h => ?_, ?_⟩, fun n hn d => ?_, ofString?_text, fun t d e _ _ => ⟨?_, ?_⟩⟩
  · obtain ⟨d, hd⟩ := Option.isSome_iff_exists.1 h
    obtain ⟨n, hn⟩ := Numeral.exists_standsIn hd
    refine ⟨n, hn, ?_⟩
    rw [habs, ← isSome_ofRaw?_iff, ← Numeral.ofString?_of_standsIn hn]
    exact h
  · rintro ⟨n, hn, hfits⟩
    rwa [Numeral.ofString?_of_standsIn hn, isSome_ofRaw?_iff, ← habs]
  · rw [Numeral.ofString?_of_standsIn hn, ofRaw?_eq_some_iff, ← n.raw_eq, Int.cast_inj]
  · rintro rfl
    rfl
  · intro htext
    have hd := ofString?_text d
    rw [htext, ofString?_text] at hd
    exact (Option.some_inj.1 hd).symm

end Mintage.Dec
