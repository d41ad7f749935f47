import Mintage.Number.Word

/-!
Runs of ASCII digits, read as natural numbers and written back, and the cut of a text at
the first place where a given character stands.

* `readNat?_digits`: a number's decimal digits read back as that number.
* `splitAt?_eq_some_iff`: the cut gives the two sides of the first separator, and
  nothing else.
-/

namespace Mintage.Text

/-! ### Reading -/

/-- Reads one or more ASCII digits; leading zeros are allowed and any other character is
refused. -/
def readNat? (s : List Char) : Option Nat :=
  if s ≠ [] ∧ s.all Char.isDigit then some (Nat.ofDigitChars 10 s 0) else none

/-- Reads an unsigned 64-bit number: an optional plus sign and one or more digits,
within range. -/
def readUInt64? (s : List Char) : Option UInt64 :=
  let body := match s with
    | '+' :: rest => rest
    | _ => s
  (readNat? body).bind Word.ofNat?

/-- Reads a signed 64-bit number: an optional sign and one or more digits, within range. -/
def readInt64? (s : List Char) : Option Int64 :=
  match s with
  | '-' :: rest => (readNat? rest).bind fun n => Word.signed? (-(n : Int))
  | '+' :: rest => (readNat? rest).bind fun n => Word.signed? n
  | _ => (readNat? s).bind fun n => Word.signed? n

/-! ### Writing -/

/-- The decimal digits of a number. -/
def digits (n : Nat) : List Char :=
  Nat.toDigits 10 n

/-- The decimal digits of a number, with zeros in front up to the given width. -/
def paddedDigits (width n : Nat) : List Char :=
  List.replicate (width - (digits n).length) '0' ++ digits n

theorem readNat?_digits (n : Nat) : readNat? (digits n) = some n := by
  rw [readNat?, if_pos, digits, Nat.ofDigitChars_toDigits (by decide) (by decide)]
  exact ⟨Nat.toDigits_ne_nil, List.all_eq_true.2 fun _ =>
    Nat.isDigit_of_mem_toDigits (by decide) (by decide)⟩

/-! ### Cutting -/

/-- The text before and after the first occurrence of `c`, or nothing where `c` does not
occur. -/
def splitAt? (c : Char) : List Char → Option (List Char × List Char)
  | [] => none
  | x :: r => if x = c then some ([], r) else (splitAt? c r).map fun p => (x :: p.1, p.2)

theorem splitAt?_eq_some_iff {c : Char} {s a b : List Char} :
    splitAt? c s = some (a, b) ↔ s = a ++ c :: b ∧ c ∉ a := by
  induction s generalizing a with
  | nil => simp [splitAt?]
  | cons x r ih =>
      by_cases hx : x = c
      · subst hx
        cases a with
        | nil => simp [splitAt?, eq_comm]
        | cons y a' =>
            simp only [splitAt?, if_true, Option.some.injEq, Prod.mk.injEq, List.cons_append,
              List.cons.injEq, List.mem_cons, not_or, reduceCtorEq, false_and, false_iff, not_and]
            exact fun h hn => absurd h.1 hn
      · cases a with
        | nil => simp [splitAt?, hx]
        | cons y a' =>
            simp only [splitAt?, hx, if_false, Option.map_eq_some_iff, Prod.mk.injEq,
              List.cons.injEq, List.cons_append, List.mem_cons, not_or]
            constructor
            · rintro ⟨⟨a₀, b₀⟩, h, ⟨rfl, rfl⟩, rfl⟩
              have := ih.1 h
              exact ⟨⟨rfl, this.1⟩, fun h => hx h.symm, this.2⟩
            · rintro ⟨⟨rfl, h⟩, _, hna⟩
              exact ⟨(a', b), ih.2 ⟨h, hna⟩, ⟨rfl, rfl⟩, rfl⟩

end Mintage.Text
