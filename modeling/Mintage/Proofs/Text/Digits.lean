import Mathlib.Algebra.Order.Ring.Nat
import Mathlib.Tactic.Lemma
import Mintage.Text.Blank
import Mintage.Text.Digits

/-!
What numerals stand for, padded digits, what digits cannot be, and texts that are not cut.

* `Denotes`, `readUInt64?_eq_some_iff`: a height is read where one or more digits stand for
  it, with or without a plus sign in front.
* `readNat?_paddedDigits`: zeros in front do not change what digits stand for, so
  `paddedDigits_injective`.
* `length_paddedDigits`: a number that fits a width is written in exactly that width.
* `lt_of_paddedDigits_lt`: numbers of one width come in the order of their texts.
* `isBlank_of_isDigit`: a digit is never white space.
* `readUInt64?_toString`, `readInt64?_toString`: a word is read as it is written.
* `splitAt?_eq_none`: where the separator does not occur there is no cut.
-/

namespace Mintage.Text

/-! ### Numerals -/

/-- One or more digits that stand for a number. Zeros in front count for nothing. -/
structure Denotes (s : List Char) (n : ℕ) : Prop where
  nonempty : s ≠ []
  digits : ∀ c ∈ s, c.isDigit
  value : Nat.ofDigitChars 10 s 0 = n

lemma readNat?_eq_some_iff {s : List Char} {n : ℕ} : readNat? s = some n ↔ Denotes s n := by
  rw [readNat?]
  split
  · next h =>
      rw [Option.some_inj]
      exact ⟨fun hn => ⟨h.1, List.all_eq_true.1 h.2, hn⟩, Denotes.value⟩
  · next h =>
      refine iff_of_false (Option.some_ne_none n ·.symm) fun hs => h ?_
      exact ⟨hs.nonempty, List.all_eq_true.2 hs.digits⟩

/-- **A height is read** where digits stand for it, behind a plus sign or nothing. -/
theorem readUInt64?_eq_some_iff {s : List Char} {w : UInt64} :
    readUInt64? s = some w ↔
      ∃ sign digits, s = sign ++ digits ∧ (sign = [] ∨ sign = ['+']) ∧
        Denotes digits w.toNat := by
  have hnumber (body : List Char) :
      (readNat? body).bind Word.ofNat? = some w ↔ Denotes body w.toNat := by
    rw [Option.bind_eq_some_iff]
    simp only [readNat?_eq_some_iff, Word.ofNat?_eq_some_iff]
    exact ⟨fun ⟨_, h, hw⟩ => hw ▸ h, fun h => ⟨_, h, rfl⟩⟩
  unfold readUInt64?
  dsimp only
  split
  · next rest =>
      rw [hnumber]
      refine ⟨fun h => ⟨['+'], rest, rfl, .inr rfl, h⟩, ?_⟩
      rintro ⟨sign, digits, hs, rfl | rfl, h⟩
      -- a numeral does not begin with the sign
      · obtain rfl : digits = '+' :: rest := hs.symm
        exact absurd (h.digits '+' (List.mem_cons_self ..)) (by decide)
      · obtain rfl : rest = digits := by simpa using hs
        exact h
  · next hsign =>
      rw [hnumber]
      refine ⟨fun h => ⟨[], s, rfl, .inl rfl, h⟩, ?_⟩
      rintro ⟨sign, digits, hs, rfl | rfl, h⟩
      · exact hs ▸ h
      · exact absurd hs (hsign digits)

/-! ### Padded digits -/

lemma isDigit_of_mem_digits {n : Nat} {c : Char} (h : c ∈ digits n) : c.isDigit :=
  Nat.isDigit_of_mem_toDigits (by decide) (by decide) h

lemma isDigit_of_mem_paddedDigits {w n : Nat} {c : Char} (h : c ∈ paddedDigits w n) :
    c.isDigit := by
  rcases List.mem_append.1 h with h | h
  · rw [List.eq_of_mem_replicate h]
    rfl
  · exact isDigit_of_mem_digits h

lemma paddedDigits_ne_nil (w n : Nat) : paddedDigits w n ≠ [] := by
  simp [paddedDigits, digits, Nat.toDigits_ne_nil]

/-- Zeros in front of digits count for nothing. -/
lemma ofDigitChars_paddedDigits (w n : Nat) : Nat.ofDigitChars 10 (paddedDigits w n) 0 = n := by
  rw [paddedDigits, Nat.ofDigitChars_append, Nat.ofDigitChars_replicate_zero, Nat.mul_zero, digits,
    Nat.ofDigitChars_toDigits (by decide) (by decide)]

/-- Zeros in front of digits do not change the number. -/
theorem readNat?_paddedDigits (w n : Nat) : readNat? (paddedDigits w n) = some n := by
  rw [readNat?_eq_some_iff]
  exact ⟨paddedDigits_ne_nil w n, fun _ => isDigit_of_mem_paddedDigits,
    ofDigitChars_paddedDigits w n⟩

/-- The padded digits determine the number. -/
lemma paddedDigits_injective (w : Nat) : Function.Injective (paddedDigits w) := fun m n h => by
  have := readNat?_paddedDigits w m
  rw [h, readNat?_paddedDigits] at this
  exact (Option.some_inj.1 this).symm

/-- A number below a power of ten is written in exactly that many digits. -/
lemma length_paddedDigits {w n : Nat} (hw : 0 < w) (hn : n < 10 ^ w) :
    (paddedDigits w n).length = w := by
  have hle : (digits n).length ≤ w := (Nat.length_toDigits_le_iff (by decide) hw).2 hn
  rw [paddedDigits, List.length_append, List.length_replicate]
  omega

lemma toNat_of_isDigit {c : Char} (h : c.isDigit) : 48 ≤ c.toNat ∧ c.toNat ≤ 57 := by
  simpa [Char.isDigit, UInt32.le_iff_toNat_le] using h

/-- Of two texts of one length, both digits, the lesser one stands for less, and so does
any of them behind a lesser number. -/
lemma ofDigitChars_lt {s t : List Char} (hlen : s.length = t.length) (hs : ∀ c ∈ s, c.isDigit)
    (ht : ∀ c ∈ t, c.isDigit) {i j : Nat} (h : i < j ∨ i = j ∧ s < t) :
    Nat.ofDigitChars 10 s i < Nat.ofDigitChars 10 t j := by
  induction s generalizing t i j with
  | nil =>
      obtain rfl := List.length_eq_zero_iff.1 hlen.symm
      exact h.elim id fun h => absurd h.2 (List.not_lt_nil _)
  | cons c s ih =>
      obtain _ | ⟨d, t⟩ := t
      · cases hlen
      have hc := toNat_of_isDigit (hs c (List.mem_cons_self ..))
      have hd := toNat_of_isDigit (ht d (List.mem_cons_self ..))
      rw [Nat.ofDigitChars_cons, Nat.ofDigitChars_cons]
      refine ih (Nat.succ.inj hlen) (fun x hx => hs x (List.mem_cons_of_mem _ hx))
        (fun x hx => ht x (List.mem_cons_of_mem _ hx)) ?_
      have hzero : '0'.toNat = 48 := rfl
      rcases h with hij | ⟨rfl, hlt⟩
      · left
        omega
      rcases List.cons_lt_cons_iff.1 hlt with hcd | ⟨rfl, hst⟩
      · left
        have : c.toNat < d.toNat := hcd
        omega
      · exact .inr ⟨rfl, hst⟩

/-- **Numbers of one width** come in the order of their texts. -/
theorem lt_of_paddedDigits_lt {w m n : Nat} (hm : m < 10 ^ w) (hn : n < 10 ^ w)
    (h : paddedDigits w m < paddedDigits w n) : m < n := by
  obtain _ | w := w
  · rw [Nat.pow_zero, Nat.lt_one_iff] at hm hn
    subst hm hn
    exact absurd h (List.lt_irrefl _)
  have hlen : (paddedDigits (w + 1) m).length = (paddedDigits (w + 1) n).length := by
    rw [length_paddedDigits w.succ_pos hm, length_paddedDigits w.succ_pos hn]
  have hvalue := ofDigitChars_lt hlen (fun _ => isDigit_of_mem_paddedDigits)
    (fun _ => isDigit_of_mem_paddedDigits) (.inr ⟨rfl, h⟩) (i := 0)
  rwa [ofDigitChars_paddedDigits, ofDigitChars_paddedDigits] at hvalue

/-! ### What digits cannot be -/

/-- No digit is white space. -/
lemma isBlank_of_isDigit {c : Char} (h : c.isDigit) : isBlank c = false := by
  have hc := toNat_of_isDigit h
  simp only [isBlank, Bool.or_eq_false_iff, Bool.and_eq_false_iff, decide_eq_false_iff_not,
    beq_eq_false_iff_ne]
  omega

/-- A character that is no digit does not occur in digits. -/
lemma not_mem_digits {n : Nat} {c : Char} (h : c.isDigit = false) : c ∉ digits n := fun hc => by
  rw [isDigit_of_mem_digits hc] at h
  exact absurd h (by decide)

/-! ### Written numbers -/

lemma toList_toString (n : ℕ) : (toString n).toList = digits n :=
  Nat.toList_repr

/-- An unsigned word is read as it is written. -/
lemma readUInt64?_toString (n : UInt64) : readUInt64? (toString n.toNat).toList = some n := by
  rw [toList_toString]
  exact readUInt64?_eq_some_iff.2
    ⟨[], _, rfl, .inl rfl, readNat?_eq_some_iff.1 (readNat?_digits n.toNat)⟩

/-- A signed word is read as it is written. -/
lemma readInt64?_toString (n : Int64) : readInt64? (toString n.toInt).toList = some n := by
  rw [Int.toString_eq_repr]
  cases hn : n.toInt with
  | ofNat m =>
      have hdigits : (Int.repr (.ofNat m)).toList = digits m := Nat.toList_repr
      have hword : Word.signed? m = some n := Word.signed?_eq_some_iff.2 hn
      rw [hdigits]
      -- a number without a sign does not begin with one
      unfold readInt64?
      split
      · next rest hminus =>
          exact absurd (hminus ▸ List.mem_cons_self ..) (not_mem_digits (n := m) (c := '-') rfl)
      · next rest hplus =>
          exact absurd (hplus ▸ List.mem_cons_self ..) (not_mem_digits (n := m) (c := '+') rfl)
      · rw [readNat?_digits, Option.bind_some, hword]
  | negSucc m =>
      have hdigits : (Int.repr (.negSucc m)).toList = '-' :: digits (m + 1) := by
        rw [Int.repr, String.toList_append, Nat.toList_repr]
        rfl
      have hword : Word.signed? (-((m + 1 : ℕ) : ℤ)) = some n := Word.signed?_eq_some_iff.2 hn
      rw [hdigits, readInt64?, readNat?_digits, Option.bind_some, hword]

/-! ### Cuts -/

/-- A text without the separator is not cut. -/
lemma splitAt?_eq_none {c : Char} {s : List Char} (h : c ∉ s) : splitAt? c s = none := by
  cases hsplit : splitAt? c s with
  | none => rfl
  | some parts =>
      obtain ⟨rfl, -⟩ := splitAt?_eq_some_iff.1 hsplit
      exact absurd (List.mem_append_right _ (List.mem_cons_self ..)) h

end Mintage.Text
