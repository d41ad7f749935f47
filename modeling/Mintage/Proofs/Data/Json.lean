import Mathlib.Algebra.Order.Ring.Nat
import Mathlib.Tactic.Lemma
import Mathlib.Tactic.SplitIfs
import Mintage.Data.Json
import Mintage.Proofs.Text.Digits
import Mintage.Proofs.Text.Utf8

/-!
What is written as JSON is read back.

* `Datum.Plain`: the data that have a JSON form of their own.
* `Json.pieces?_escaped`, `Json.textOf?_escaped`: a text comes back from its literal,
  whatever it holds.
* `Json.number?_digits`: so does an integer, in front of anything that cannot go on with it.
* `Json.ReadsValues`, `Json.ReadsItems`, `Json.ReadsFields`: what enough fuel is enough for,
  each a step from the others.
* `Json.read?_write`: plain data come back from their text.
-/

namespace Mintage

/-- Data with a JSON form of their own: numbers are integers, texts are Unicode, and fields
have names. -/
inductive Datum.Plain : Datum → Prop where
  | null : Plain .null
  | bool (b : Bool) : Plain (.bool b)
  | int (n : ℤ) : Plain (.int n)
  | text (s : String) : Plain (.text (some s))
  | list {items : List Datum} (hitems : ∀ d ∈ items, Plain d) : Plain (.list items)
  | object {fields : List (String × Datum)} (hfields : ∀ f ∈ fields, Plain f.2) :
      Plain (.object fields)

namespace Json

/-! ### Bytes -/

lemma toNat_byte {c : Char} (h : c.toNat < 256) : (byte c).toNat = c.toNat :=
  UInt8.toNat_ofNat_of_lt' h

lemma char_byte {c : Char} (h : c.toNat < 256) : char (byte c) = c := by
  rw [char, toNat_byte h, Char.ofNat_toNat]

lemma isDigit_byte {c : Char} (h : c.isDigit) : isDigit (byte c) := by
  have hc := Text.toNat_of_isDigit h
  have hbyte := toNat_byte (c := c) (by omega)
  simp only [isDigit, Bool.and_eq_true, decide_eq_true_eq, UInt8.le_iff_toNat_le, hbyte]
  exact hc

/-- A byte that is none of the blanks stays where it is. -/
lemma skipBlank_cons {b : UInt8} (h : isBlank b = false) (s : Bytes) :
    skipBlank (b :: s) = b :: s :=
  List.dropWhile_cons_of_neg (by simp [h])

/-! ### String literals -/

/-- The piece that the escape of a byte is read as. -/
def pieceOf (b : UInt8) : Piece :=
  if b < 32 ∧ b ∉ [8, 9, 10, 12, 13] then .unit b.toNat else .raw b

/-- The digits of a control character's escape stand for it. -/
lemma hexUnit?_control {n : ℕ} (hn : n < 32) :
    hexUnit? (byte '0') (byte '0') (byte (Nat.digitChar (n / 16)))
      (byte (Nat.digitChar (n % 16))) = some n := by
  revert n
  decide

/-- The escape of a byte is read as its piece. -/
lemma pieces?_escape (b : UInt8) (t : Bytes) :
    pieces? (escape b ++ t) = (pieces? t).map fun p => (pieceOf b :: p.1, p.2) := by
  rw [escape, Option.map_eq_bind]
  split_ifs with h₁ h₂ h₃ h₄ h₅ h₆ h₇ h₈
  · subst h₁; rfl
  · subst h₂; rfl
  · subst h₃; rfl
  · subst h₄; rfl
  · subst h₅; rfl
  · subst h₆; rfl
  · subst h₇; rfl
  · have hn : b.toNat < 32 := UInt8.lt_iff_toNat_lt.1 h₈
    have hpiece : pieceOf b = .unit b.toNat := if_pos (by simp [h₃, h₄, h₅, h₆, h₇, h₈])
    show (hexUnit? _ _ _ _).bind _ = _
    rw [hexUnit?_control hn, hpiece]
    rfl
  · have hpiece : pieceOf b = .raw b := if_neg fun h => h₈ h.1
    rw [List.singleton_append, pieces?, if_neg (not_or.2 ⟨h₈, h₂⟩), hpiece]
    · rfl
    · exact h₁
    · exact fun _ _ _ _ _ h _ => h₂ h
    · exact fun _ _ h _ => h₂ h

/-- The escapes of bytes and a quote after them are read as the pieces. -/
lemma pieces?_escaped (bs r : Bytes) :
    pieces? (bs.flatMap escape ++ 34 :: r) = some (bs.map pieceOf, r) := by
  induction bs with
  | nil => rfl
  | cons b bs ih => rw [List.flatMap_cons, List.append_assoc, pieces?_escape, ih]; rfl

/-- A unit that is no half of a pair stands for its character. -/
lemma denote?_unit {n : ℕ} (hn : n < 0xD800) (ps : List Piece) :
    denote? (.unit n :: ps)
      = (denote? ps).map (Text.utf8 (String.singleton (Char.ofNat n)) ++ ·) := by
  have hhigh : ¬ (0xD800 ≤ n ∧ n < 0xDC00) := by omega
  have hlow : ¬ (0xDC00 ≤ n ∧ n < 0xE000) := by omega
  have hpair : ¬ (0xD800 ≤ n ∧ n < 0xE000) := by omega
  rcases ps with _ | ⟨_ | m, ps⟩
  · exact if_neg hpair
  · exact if_neg hpair
  · exact (if_neg hhigh).trans (if_neg hlow)

lemma denote?_pieceOf (b : UInt8) (ps : List Piece) :
    denote? (pieceOf b :: ps) = (denote? ps).map (b :: ·) := by
  rw [pieceOf]
  split
  · next h =>
      have hn : b.toNat < 32 := UInt8.lt_iff_toNat_lt.1 h.1
      have hutf8 : ∀ n < 32, Text.utf8 (String.singleton (Char.ofNat n)) = [UInt8.ofNat n] := by
        decide
      rw [denote?_unit (by omega), hutf8 _ hn, UInt8.ofNat_toNat]
      rfl
  · rfl

/-- **A text comes back** from the pieces of its literal. -/
lemma textOf?_escaped (s : String) : textOf? ((Text.utf8 s).map pieceOf) = some s := by
  have hdenote (bs : Bytes) : denote? (bs.map pieceOf) = some bs := by
    induction bs with
    | nil => rfl
    | cons b bs ih => rw [List.map_cons, denote?_pieceOf, ih]; rfl
  rw [textOf?, hdenote, Option.bind_some, Text.ofUtf8?_utf8]

/-! ### Numbers -/

/-- What can come after a value: nothing, a comma, or a closing bracket. -/
def Stops (r : Bytes) : Prop :=
  ∀ b ∈ r.head?, b = 44 ∨ b = 93 ∨ b = 125

/-- Nothing that can come after a value goes on with a number. -/
lemma Stops.ends_number {r : Bytes} (hr : Stops r) :
    r.takeWhile isDigit = [] ∧ r.dropWhile isDigit = r ∧ skipFraction? r = some (false, r) ∧
      skipExponent? r = some (false, r) := by
  cases r with
  | nil => exact ⟨rfl, rfl, rfl, rfl⟩
  | cons b t => rcases hr b rfl with rfl | rfl | rfl <;> exact ⟨rfl, rfl, rfl, rfl⟩

/-- Only zero is written with a zero in front. -/
lemma head?_digits_ne_zero {n : ℕ} (hn : 0 < n) : (Text.digits n).head? ≠ some '0' := by
  have hdigit : ∀ d < 10, 0 < d → Nat.digitChar d ≠ '0' := by decide
  induction n using Nat.strong_induction_on with
  | _ n ih =>
      rw [Text.digits]
      by_cases hten : n < 10
      · rw [Nat.toDigits_of_lt_base hten]
        simpa using hdigit n hten hn
      · rw [Nat.toDigits_of_base_le (by decide) (by omega),
          List.head?_append_of_ne_nil _ Nat.toDigits_ne_nil]
        exact ih (n / 10) (by omega) (by omega)

/-- The digits of a number as bytes. -/
def digitBytes (n : ℕ) : Bytes :=
  (Text.digits n).map byte

lemma isDigit_of_mem_digitBytes {n : ℕ} {b : UInt8} (h : b ∈ digitBytes n) : isDigit b := by
  obtain ⟨c, hc, rfl⟩ := List.mem_map.1 h
  exact isDigit_byte (Text.isDigit_of_mem_digits hc)

/-- The bytes of digits are those digits. -/
lemma map_char_digitBytes (n : ℕ) : (digitBytes n).map char = Text.digits n := by
  rw [digitBytes, List.map_map, List.map_congr_left (g := id), List.map_id]
  intro c hc
  have := Text.toNat_of_isDigit (Text.isDigit_of_mem_digits hc)
  exact char_byte (by omega)

/-- There is a digit, and none stands behind a zero in front. -/
lemma digitBytes_proper (n : ℕ) : ¬ ((digitBytes n).isEmpty ∨
    (digitBytes n).head? = some (byte '0') ∧ 1 < (digitBytes n).length) := by
  rintro (hempty | ⟨hzero, hlength⟩)
  · exact Nat.toDigits_ne_nil (List.map_eq_nil_iff.1 (List.isEmpty_iff.1 hempty))
  · have hhead : (Text.digits n).head? = some '0' := by
      rw [← map_char_digitBytes, List.head?_map, hzero]
      rfl
    rcases Nat.eq_zero_or_pos n with rfl | hpos
    · exact absurd hlength (by decide)
    · exact head?_digits_ne_zero hpos hhead

/-- **The digits of a number**, in front of what cannot go on with it, are read as it. -/
lemma number?_digits (negative : Bool) {n : ℕ} (hn : negative → n ≠ 0) {r : Bytes}
    (hr : Stops r) :
    number? negative (digitBytes n ++ r) = some (.int (if negative then -n else n), r) := by
  have hall : ∀ b ∈ digitBytes n, isDigit b := fun _ => isDigit_of_mem_digitBytes
  have hvalue : Nat.ofDigitChars 10 ((digitBytes n).map char) 0 = n := by
    rw [map_char_digitBytes, Text.digits, Nat.ofDigitChars_toDigits (by decide) (by decide)]
  obtain ⟨htake, hdrop, hfraction, hexponent⟩ := hr.ends_number
  rw [number?, List.takeWhile_append_of_pos hall, List.dropWhile_append_of_pos hall, htake, hdrop,
    List.append_nil, hvalue]
  simp only [if_neg (digitBytes_proper n), hfraction, hexponent, Option.bind_eq_bind,
    Option.bind_some]
  cases negative with
  | false => rfl
  | true => exact if_neg (hn rfl)

/-! ### Values -/

variable {fuel : ℕ} {r : Bytes}

/-- A byte that is a digit is none that is not. -/
lemma ne_of_isDigit {b c : UInt8} (hb : isDigit b) (hc : isDigit c = false) : b ≠ c := by
  rintro rfl
  rw [hb] at hc
  cases hc

lemma isBlank_of_isDigit {b : UInt8} (hb : isDigit b) : isBlank b = false := by
  have hne (c : UInt8) (hc : isDigit c = false) : (b == c) = false :=
    beq_eq_false_iff_ne.2 (ne_of_isDigit hb hc)
  rw [isBlank, hne _ rfl, hne _ rfl, hne _ rfl, hne _ rfl]
  rfl

/-- A digit begins a number. -/
lemma value?_digit {b : UInt8} (hb : isDigit b) (t : Bytes) :
    value? (fuel + 1) (b :: t) = number? false (b :: t) := by
  have hne (c : UInt8) (hc : isDigit c = false) : b ≠ c := ne_of_isDigit hb hc
  rw [value?, skipBlank_cons (isBlank_of_isDigit hb)]
  dsimp only
  rw [if_neg (hne _ rfl), if_neg (hne _ rfl), if_neg (hne _ rfl), if_neg (hne _ rfl),
    if_neg (hne _ rfl), if_pos hb]

lemma digitBytes_eq_cons (n : ℕ) : ∃ b t, digitBytes n = b :: t ∧ isDigit b := by
  obtain ⟨b, t, h⟩ : ∃ b t, digitBytes n = b :: t :=
    List.exists_cons_of_ne_nil fun h => Nat.toDigits_ne_nil (List.map_eq_nil_iff.1 h)
  exact ⟨b, t, h, isDigit_of_mem_digitBytes (h ▸ List.mem_cons_self ..)⟩

lemma value?_int (n : ℤ) (hr : Stops r) :
    value? (fuel + 1) (writeInt n ++ r) = some (.int n, r) := by
  rw [writeInt]
  split
  · next hn =>
      have habs : -(n.natAbs : ℤ) = n := by omega
      have hread := number?_digits true (n := n.natAbs) (fun _ => by omega) hr
      rwa [if_pos rfl, habs] at hread
  · next hn =>
      have habs : (n.natAbs : ℤ) = n := by omega
      have hread := number?_digits false (n := n.natAbs) nofun hr
      obtain ⟨b, t, hdigits, hb⟩ := digitBytes_eq_cons n.natAbs
      rw [if_neg Bool.false_ne_true, habs] at hread
      show value? (fuel + 1) (digitBytes n.natAbs ++ r) = _
      rw [hdigits] at hread ⊢
      exact (value?_digit hb _).trans hread

lemma value?_text (s : String) :
    value? (fuel + 1) (writeString s ++ r) = some (.text (some s), r) := by
  have hread := pieces?_escaped (Text.utf8 s) r
  have hwritten : writeString s ++ r = 34 :: ((Text.utf8 s).flatMap escape ++ 34 :: r) := by
    simp [writeString]
  rw [hwritten]
  show (pieces? _).map _ = _
  rw [hread, Option.map_some, textOf?_escaped]

/-- What is written begins with a byte that is neither blank nor the end of a list. -/
lemma write_eq_cons (d : Datum) : ∃ b t, write d = b :: t ∧ isBlank b = false ∧ b ≠ 93 := by
  cases d with
  | null => exact ⟨_, _, rfl, by decide⟩
  | bool v => cases v <;> exact ⟨_, _, rfl, by decide⟩
  | int n =>
      show ∃ b t, writeInt n = _ ∧ _
      rw [writeInt]
      split
      · exact ⟨_, _, rfl, by decide⟩
      · obtain ⟨b, t, hdigits, hb⟩ := digitBytes_eq_cons n.natAbs
        exact ⟨b, t, hdigits, isBlank_of_isDigit hb, ne_of_isDigit hb rfl⟩
  | real => exact ⟨_, _, rfl, by decide⟩
  | text s => cases s <;> exact ⟨_, _, rfl, by decide⟩
  | list items => exact ⟨_, _, rfl, by decide⟩
  | record fields => exact ⟨_, _, rfl, by decide⟩

/-! ### Lists and records -/

/-- With this much fuel, every value is read that is written in half as many bytes. -/
def ReadsValues (fuel : ℕ) : Prop :=
  ∀ ⦃d : Datum⦄ ⦃r : Bytes⦄, d.Plain → Stops r → 2 * (write d).length ≤ fuel →
    value? fuel (write d ++ r) = some (d, r)

/-- With this much fuel, the items of every list are read. -/
def ReadsItems (fuel : ℕ) : Prop :=
  ∀ ⦃d : Datum⦄ ⦃ds : List Datum⦄ ⦃r : Bytes⦄, (∀ x ∈ d :: ds, x.Plain) →
    2 * (writeItems (d :: ds)).length ≤ fuel →
      items? fuel (writeItems (d :: ds) ++ r) = some (d :: ds, r)

/-- The fields of a record, with their names. -/
def named (fields : List (String × Datum)) : List (Option String × Datum) :=
  fields.map fun f => (some f.1, f.2)

/-- With this much fuel, the fields of every record are read. -/
def ReadsFields (fuel : ℕ) : Prop :=
  ∀ ⦃f : String × Datum⦄ ⦃fs : List (String × Datum)⦄ ⦃r : Bytes⦄, (∀ x ∈ f :: fs, x.2.Plain) →
    2 * (writeFields (named (f :: fs))).length ≤ fuel →
      fields? fuel (writeFields (named (f :: fs)) ++ r) = some (named (f :: fs), r)

/-- What does not begin like an empty list is read as items. -/
lemma value?_items {b : UInt8} (hblank : isBlank b = false) (hend : b ≠ 93) (t : Bytes) :
    value? (fuel + 1) (91 :: b :: t) = (items? fuel (b :: t)).map fun p => (.list p.1, p.2) := by
  rw [value?, skipBlank_cons rfl]
  dsimp only
  -- the bracket is none of the other bytes that a value begins with
  rw [if_neg (by decide), if_neg (by decide), if_neg (by decide), if_neg (by decide),
    if_neg (by decide), if_neg (by decide), if_pos (by decide), skipBlank_cons hblank]
  split
  · next h => exact absurd (List.cons.inj h).1 hend
  · rfl

lemma writeItems_cons (d : Datum) (ds : List Datum) :
    ∃ t, writeItems (d :: ds) = write d ++ t := by
  cases ds with
  | nil => exact ⟨_, rfl⟩
  | cons e ds => exact ⟨_, rfl⟩

lemma writeFields_cons (f : String × Datum) (fs : List (String × Datum)) :
    ∃ t, writeFields (named (f :: fs)) = 34 :: t := by
  cases fs with
  | nil => exact ⟨_, rfl⟩
  | cons e fs => exact ⟨_, rfl⟩

/-- A value is read where the items of lists and the fields of records are. -/
lemma readsValues_succ (hitems : ReadsItems fuel) (hfields : ReadsFields fuel) :
    ReadsValues (fuel + 1) := by
  intro d r hd hr hfuel
  cases hd with
  | null => rfl
  | bool b => cases b <;> rfl
  | int n => exact value?_int n hr
  | text s => exact value?_text s
  | @list items hplain =>
      cases items with
      | nil => rfl
      | cons d ds =>
          obtain ⟨b, t, hd, hblank, hend⟩ := write_eq_cons d
          obtain ⟨u, hu⟩ := writeItems_cons d ds
          have hlength : (write (.list (d :: ds))).length = (writeItems (d :: ds)).length + 1 := rfl
          have hread := hitems (r := r) hplain (by omega)
          show value? (fuel + 1) (91 :: (writeItems (d :: ds) ++ r)) = _
          rw [hu, hd] at hread ⊢
          exact (value?_items hblank hend _).trans (congrArg (Option.map _) hread)
  | @object fields hplain =>
      cases fields with
      | nil => rfl
      | cons f fs =>
          obtain ⟨t, ht⟩ := writeFields_cons f fs
          have hlength : (write (.object (f :: fs))).length
              = (writeFields (named (f :: fs))).length + 1 := rfl
          have hread := hfields (r := r) hplain (by omega)
          show value? (fuel + 1) (123 :: (writeFields (named (f :: fs)) ++ r)) = _
          rw [ht] at hread ⊢
          exact congrArg (Option.map _) hread

/-- Items are read where the first of them and those behind it are. -/
lemma readsItems_succ (hvalues : ReadsValues fuel) (hitems : ReadsItems fuel) :
    ReadsItems (fuel + 1) := by
  intro d ds r hplain hfuel
  have hd := hplain d (List.mem_cons_self ..)
  cases ds with
  | nil =>
      have hwritten : writeItems [d] = write d ++ [93] := rfl
      rw [hwritten, List.length_append, List.length_singleton] at hfuel
      have hvalue := hvalues (r := 93 :: r) hd (by simp [Stops]) (by omega)
      rw [hwritten, List.append_assoc, items?, List.singleton_append, hvalue]
      rfl
  | cons e ds =>
      have hwritten : writeItems (d :: e :: ds) = write d ++ 44 :: writeItems (e :: ds) := rfl
      rw [hwritten, List.length_append, List.length_cons] at hfuel
      have hvalue := hvalues (r := 44 :: (writeItems (e :: ds) ++ r)) hd (by simp [Stops])
        (by omega)
      have hrest := hitems (r := r) (fun x hx => hplain x (List.mem_cons_of_mem _ hx)) (by omega)
      rw [hwritten, List.append_assoc, items?, List.cons_append, hvalue]
      show (items? fuel _).bind _ = _
      rw [hrest]
      rfl

/-- A name and a colon are read, then the value and what follows it. -/
lemma fields?_named (name : String) (s : Bytes) :
    fields? (fuel + 1) (writeString name ++ 58 :: s) = (value? fuel s).bind fun p =>
      match skipBlank p.2 with
      | 44 :: t => (fields? fuel t).bind fun q => some ((some name, p.1) :: q.1, q.2)
      | 125 :: t => some ([(some name, p.1)], t)
      | _ => none := by
  have hread := pieces?_escaped (Text.utf8 name) (58 :: s)
  have hwritten : writeString name ++ 58 :: s
      = 34 :: ((Text.utf8 name).flatMap escape ++ 34 :: 58 :: s) := by simp [writeString]
  rw [hwritten, fields?]
  show (pieces? _).bind _ = _
  rw [hread, Option.bind_some]
  simp only [textOf?_escaped]
  rfl

/-- Fields are read where the value of the first and the fields behind it are. -/
lemma readsFields_succ (hvalues : ReadsValues fuel) (hfields : ReadsFields fuel) :
    ReadsFields (fuel + 1) := by
  intro f fs r hplain hfuel
  have hd := hplain f (List.mem_cons_self ..)
  cases fs with
  | nil =>
      have hwritten : writeFields (named [f]) = writeString f.1 ++ 58 :: write f.2 ++ [125] := rfl
      simp only [hwritten, List.length_append, List.length_cons] at hfuel
      have hvalue := hvalues (r := 125 :: r) hd (by simp [Stops]) (by omega)
      rw [hwritten, List.append_assoc, List.append_assoc, List.cons_append, List.singleton_append,
        fields?_named, hvalue]
      rfl
  | cons e fs =>
      have hwritten : writeFields (named (f :: e :: fs))
          = writeString f.1 ++ 58 :: write f.2 ++ 44 :: writeFields (named (e :: fs)) := rfl
      simp only [hwritten, List.length_append, List.length_cons] at hfuel
      have hvalue := hvalues (r := 44 :: (writeFields (named (e :: fs)) ++ r)) hd (by simp [Stops])
        (by omega)
      have hrest := hfields (r := r) (fun x hx => hplain x (List.mem_cons_of_mem _ hx)) (by omega)
      rw [hwritten, List.append_assoc, List.append_assoc, List.cons_append, List.cons_append,
        fields?_named, hvalue]
      show (fields? fuel _).bind _ = _
      rw [hrest]
      rfl

/-- **What is written is read**, with fuel for twice its bytes. -/
theorem reads (fuel : ℕ) : ReadsValues fuel ∧ ReadsItems fuel ∧ ReadsFields fuel := by
  induction fuel with
  | zero =>
      refine ⟨fun d r _ _ hfuel => ?_, fun d ds r _ hfuel => ?_, fun f fs r _ hfuel => ?_⟩
      · obtain ⟨b, t, hd, -⟩ := write_eq_cons d
        simp [hd] at hfuel
      · obtain ⟨b, t, hd, -⟩ := write_eq_cons d
        obtain ⟨u, hu⟩ := writeItems_cons d ds
        simp [hu, hd] at hfuel
      · obtain ⟨t, ht⟩ := writeFields_cons f fs
        simp [ht] at hfuel
  | succ fuel ih =>
      obtain ⟨hvalues, hitems, hfields⟩ := ih
      exact ⟨readsValues_succ hitems hfields, readsItems_succ hvalues hitems,
        readsFields_succ hvalues hfields⟩

/-- **Plain data come back from their text.** -/
theorem read?_write {d : Datum} (hd : d.Plain) : read? (write d) = some d := by
  have hvalue := (reads (2 * (write d).length + 2)).1 (r := []) hd nofun (by omega)
  rw [List.append_nil] at hvalue
  rw [read?, hvalue]
  rfl

end Json

end Mintage
