/-!
White space, the characters that have the Unicode property of that name, and the text
left over when it is taken off both ends.

* `trim_eq_self`: text that starts and ends with a character that is not blank is its
  own trimmed form.
-/

namespace Mintage.Text

/-- The characters with the Unicode property White_Space. -/
def isBlank (c : Char) : Bool :=
  let n := c.toNat
  (9 ≤ n && n ≤ 13) || n == 0x20 || n == 0x85 || n == 0xA0 || n == 0x1680 ||
    (0x2000 ≤ n && n ≤ 0x200A) || n == 0x2028 || n == 0x2029 || n == 0x202F || n == 0x205F
      || n == 0x3000

/-- The text without the blanks it starts with. -/
def trimStart (s : List Char) : List Char :=
  s.dropWhile isBlank

/-- The text without the blanks it ends with. -/
def trimEnd (s : List Char) : List Char :=
  (s.reverse.dropWhile isBlank).reverse

/-- The text without the blanks at either end. -/
def trim (s : List Char) : List Char :=
  trimEnd (trimStart s)

/-- Text whose first and last characters are not blank has nothing to trim. -/
theorem trim_eq_self {s : List Char} (hfirst : ∀ c ∈ s.head?, isBlank c = false)
    (hlast : ∀ c ∈ s.getLast?, isBlank c = false) : trim s = s := by
  have hstart : trimStart s = s := by
    cases s with
    | nil => rfl
    | cons c r => simp [trimStart, hfirst c (by simp)]
  rw [trim, hstart, trimEnd]
  cases hr : s.reverse with
  | nil => simp_all
  | cons c r =>
      have hc : isBlank c = false := hlast c (by
        have : s = (c :: r).reverse := by rw [← hr, List.reverse_reverse]
        simp [this])
      rw [List.dropWhile_cons_of_neg (by simp [hc]), ← hr, List.reverse_reverse]

end Mintage.Text
