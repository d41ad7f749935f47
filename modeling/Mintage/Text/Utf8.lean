/-!
Bytes: the UTF-8 form of a text, fixed-width numbers in either byte order, and hexadecimal.

* `ofUtf8?_utf8`: a text is read back from its UTF-8 form.
-/

namespace Mintage

/-- A sequence of bytes. -/
abbrev Bytes := List UInt8

namespace Text

/-- The UTF-8 form of a text. -/
def utf8 (s : String) : Bytes :=
  s.toByteArray.data.toList

/-- The text that bytes are the UTF-8 form of, if there is one. -/
def ofUtf8? (bytes : Bytes) : Option String :=
  String.fromUTF8? ⟨bytes.toArray⟩

theorem ofUtf8?_utf8 (s : String) : ofUtf8? (utf8 s) = some s := by
  have h : (⟨(utf8 s).toArray⟩ : ByteArray) = s.toByteArray := by simp [utf8]
  rw [ofUtf8?, h, String.fromUTF8?, dif_pos s.isValidUTF8]
  rfl

end Text

namespace Bytes

/-! ### Fixed-width numbers -/

/-- The lowest `width` bytes of a number, least significant first. -/
def ofNatLE : Nat → Nat → Bytes
  | 0, _ => []
  | width + 1, n => UInt8.ofNat (n % 256) :: ofNatLE width (n / 256)

/-- The number that bytes denote, least significant first. -/
def toNatLE : Bytes → Nat
  | [] => 0
  | b :: r => b.toNat + 256 * toNatLE r

/-- The lowest `width` bytes of a number, most significant first. -/
def ofNatBE (width n : Nat) : Bytes :=
  (ofNatLE width n).reverse

/-- The number that bytes denote, most significant first. -/
def toNatBE (bytes : Bytes) : Nat :=
  toNatLE bytes.reverse

@[simp] theorem length_ofNatLE (width n : Nat) : (ofNatLE width n).length = width := by
  induction width generalizing n with
  | zero => rfl
  | succ w ih => simp [ofNatLE, ih]

theorem toNatLE_ofNatLE {width n : Nat} (h : n < Nat.pow 256 width) :
    toNatLE (ofNatLE width n) = n := by
  induction width generalizing n with
  | zero => simp_all [ofNatLE, toNatLE]
  | succ w ih =>
      have hd : n / 256 < Nat.pow 256 w := Nat.div_lt_of_lt_mul (by rw [Nat.mul_comm]; exact h)
      have hm : n % 256 < 256 := Nat.mod_lt _ (by decide)
      simp only [ofNatLE, toNatLE, ih hd, UInt8.toNat_ofNat']
      omega

/-! ### Hexadecimal -/

/-- Two lower-case hexadecimal digits for each byte. -/
def hex (bytes : Bytes) : String :=
  String.ofList (bytes.flatMap fun b =>
    [Nat.digitChar (b.toNat / 16), Nat.digitChar (b.toNat % 16)])

/-- The value of a hexadecimal digit of either case. -/
def hexValue? (c : Char) : Option Nat :=
  if '0' ≤ c ∧ c ≤ '9' then some (c.toNat - 48)
  else if 'a' ≤ c ∧ c ≤ 'f' then some (c.toNat - 87)
  else if 'A' ≤ c ∧ c ≤ 'F' then some (c.toNat - 55)
  else none

/-- Reads pairs of hexadecimal digits. -/
def ofHex? : List Char → Option Bytes
  | [] => some []
  | [_] => none
  | a :: b :: r => do
      let hi ← hexValue? a
      let lo ← hexValue? b
      return UInt8.ofNat (16 * hi + lo) :: (← ofHex? r)

end Bytes

end Mintage
