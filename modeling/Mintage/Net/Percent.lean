import Mintage.Text.Utf8

/-!
Percent coding: a character that may not stand for itself is written as its UTF-8 bytes,
each a percent sign and two hexadecimal digits. Which characters those are depends on
where in a locator they stand.
-/

namespace Mintage.Net.Percent

/-! ### Sets of characters that are coded -/

/-- Controls, and all that is not ASCII. -/
def control (c : Char) : Bool :=
  c.toNat < 0x20 || 0x7E < c.toNat

/-- What is encoded in a query. -/
def query (c : Char) : Bool :=
  control c || c ∈ [' ', '"', '#', '<', '>']

/-- In queries of the well-known schemes. -/
def specialQuery (c : Char) : Bool :=
  query c || c == '\''

/-- What is encoded in a fragment. -/
def fragment (c : Char) : Bool :=
  control c || c ∈ [' ', '"', '<', '>', '\u0060']

/-- What is encoded in a path. -/
def path (c : Char) : Bool :=
  query c || c ∈ ['?', '^', '\u0060', '{', '}']

/-- What is encoded in a user name or a password. -/
def userinfo (c : Char) : Bool :=
  path c || c ∈ ['/', ':', ';', '=', '@', '[', '\\', ']', '|']

/-! ### Coding -/

/-- The code of one byte. -/
def encodeByte (b : UInt8) : List Char :=
  ['%', (Nat.digitChar (b.toNat / 16)).toUpper, (Nat.digitChar (b.toNat % 16)).toUpper]

/-- The text with the characters of a set coded. -/
def encode (coded : Char → Bool) (s : List Char) : List Char :=
  s.flatMap fun c => if coded c then (Text.utf8 (String.singleton c)).flatMap encodeByte else [c]

/-- The bytes with every code undone; a percent sign that starts none stands for itself. -/
def decode : Bytes → Bytes
  | 37 :: a :: b :: r =>
      match Bytes.hexValue? (Char.ofNat a.toNat), Bytes.hexValue? (Char.ofNat b.toNat) with
      | some hi, some lo => UInt8.ofNat (16 * hi + lo) :: decode r
      | _, _ => 37 :: decode (a :: b :: r)
  | b :: r => b :: decode r
  | [] => []

/-- The text with every code undone, where that is text. -/
def decodeText? (s : String) : Option String :=
  Text.ofUtf8? (decode (Text.utf8 s))

end Mintage.Net.Percent
