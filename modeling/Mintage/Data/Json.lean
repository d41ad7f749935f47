import Mintage.Data.Datum
import Mintage.Text.Utf8
import Mintage.Text.Digits

/-!
The JSON text format on bytes.

* `Json.read?`: one value with white space around it. A string literal need not denote
  Unicode text as long as its escapes are well formed; who reads its text finds none.
* `Json.write`: the compact form, with the short escapes and `\u` for the other control
  characters.
-/

namespace Mintage.Json

/-! ### Bytes and blanks -/

/-- The byte of an ASCII character. -/
def byte (c : Char) : UInt8 :=
  UInt8.ofNat c.toNat

/-- Blanks may stand between any two tokens. -/
def isBlank (b : UInt8) : Bool :=
  b == byte ' ' || b == byte '\n' || b == byte '\t' || b == byte '\r'

/-- What follows the blanks at the beginning. -/
def skipBlank (s : Bytes) : Bytes :=
  s.dropWhile isBlank

/-- A decimal digit. -/
def isDigit (b : UInt8) : Bool :=
  byte '0' ≤ b && b ≤ byte '9'

/-- The character of an ASCII byte. -/
def char (b : UInt8) : Char :=
  Char.ofNat b.toNat

/-! ### String literals -/

/-- A part of a string literal: a byte of text, or a 16-bit unit written as an escape. -/
inductive Piece where
  | raw (b : UInt8)
  | unit (n : Nat)

/-- The byte that a one-letter escape stands for. -/
def shortEscape? (b : UInt8) : Option UInt8 :=
  if b == byte '"' then some b
  else if b == byte '\\' then some b
  else if b == byte '/' then some b
  else if b == byte 'b' then some 8
  else if b == byte 'f' then some 12
  else if b == byte 'n' then some 10
  else if b == byte 'r' then some 13
  else if b == byte 't' then some 9
  else none

/-- The number that four hexadecimal digits stand for. -/
def hexUnit? (a b c d : UInt8) : Option Nat := do
  let a ← Bytes.hexValue? (char a)
  let b ← Bytes.hexValue? (char b)
  let c ← Bytes.hexValue? (char c)
  let d ← Bytes.hexValue? (char d)
  return ((a * 16 + b) * 16 + c) * 16 + d

/-- The pieces of a string literal after its opening quote, and what follows the closing
one. -/
def pieces? : Bytes → Option (List Piece × Bytes)
  | [] => none
  | 34 :: r => some ([], r)
  | 92 :: 117 :: a :: b :: c :: d :: r => do
      let n ← hexUnit? a b c d
      let p ← pieces? r
      return (.unit n :: p.1, p.2)
  | 92 :: e :: r => do
      let b ← shortEscape? e
      let p ← pieces? r
      return (.raw b :: p.1, p.2)
  | b :: r =>
      if b < 32 ∨ b = 92 then none
      else do
        let p ← pieces? r
        return (.raw b :: p.1, p.2)

/-- The bytes that pieces denote. A unit from the first half of a pair needs one from
the second half after it, and those occur nowhere else. -/
def denote? : List Piece → Option Bytes
  | [] => some []
  | .raw b :: r => (denote? r).map (b :: ·)
  | .unit hi :: .unit lo :: r =>
      if 0xD800 ≤ hi ∧ hi < 0xDC00 then
        if 0xDC00 ≤ lo ∧ lo < 0xE000 then
          (denote? r).map (Text.utf8
            (String.singleton (Char.ofNat (0x10000 + (hi - 0xD800) * 0x400 + (lo - 0xDC00)))) ++ ·)
        else none
      else if 0xDC00 ≤ hi ∧ hi < 0xE000 then none
      else (denote? (.unit lo :: r)).map (Text.utf8 (String.singleton (Char.ofNat hi)) ++ ·)
  | .unit n :: r =>
      if 0xD800 ≤ n ∧ n < 0xE000 then none
      else (denote? r).map (Text.utf8 (String.singleton (Char.ofNat n)) ++ ·)

/-- The text of a string literal, if it is Unicode text. -/
def textOf? (ps : List Piece) : Option String :=
  (denote? ps).bind Text.ofUtf8?

/-! ### Numbers -/

/-- What follows a fraction of at least one digit, where one is written. -/
def skipFraction? : Bytes → Option (Bool × Bytes)
  | 46 :: r =>
      match r with
      | d :: _ => if isDigit d then some (true, r.dropWhile isDigit) else none
      | [] => none
  | s => some (false, s)

/-- What follows an exponent, where one is written. -/
def skipExponent? : Bytes → Option (Bool × Bytes)
  | [] => some (false, [])
  | e :: r =>
      if e = byte 'e' ∨ e = byte 'E' then
        let r' := match r with
          | [] => r
          | g :: t => if g = byte '+' ∨ g = byte '-' then t else r
        match r' with
        | d :: _ => if isDigit d then some (true, r'.dropWhile isDigit) else none
        | [] => none
      else some (false, e :: r)

/-- An unsigned number: no zero in front of other digits, then perhaps a fraction and an
exponent. -/
def number? (negative : Bool) (s : Bytes) : Option (Datum × Bytes) := do
  let ds := s.takeWhile isDigit
  let rest := s.dropWhile isDigit
  if ds.isEmpty ∨ (ds.head? = some (byte '0') ∧ 1 < ds.length) then none
  else
    let (frac, r₁) ← skipFraction? rest
    let (exp, r₂) ← skipExponent? r₁
    let n := Nat.ofDigitChars 10 (ds.map char) 0
    if frac ∨ exp then return (.real, r₂)
    else if negative then
      if n = 0 then return (.real, r₂) else return (.int (-(n : Int)), r₂)
    else return (.int n, r₂)

/-! ### Values -/

/-- What follows a given word. -/
def literal? (word : Bytes) (d : Datum) (s : Bytes) : Option (Datum × Bytes) :=
  if word <+: s then some (d, s.drop word.length) else none

mutual

/-- One value with blanks in front; `fuel` bounds the nesting and the number of items. -/
def value? : Nat → Bytes → Option (Datum × Bytes)
  | 0, _ => none
  | fuel + 1, s =>
      match skipBlank s with
      | [] => none
      | b :: r =>
          if b = byte 'n' then literal? (Text.utf8 "ull") .null r
          else if b = byte 't' then literal? (Text.utf8 "rue") (.bool true) r
          else if b = byte 'f' then literal? (Text.utf8 "alse") (.bool false) r
          else if b = byte '"' then (pieces? r).map fun p => (.text (textOf? p.1), p.2)
          else if b = byte '-' then number? true r
          else if isDigit b then number? false (b :: r)
          else if b = byte '[' then
            match skipBlank r with
            | 93 :: t => some (.list [], t)
            | _ => (items? fuel r).map fun p => (.list p.1, p.2)
          else if b = byte '{' then
            match skipBlank r with
            | 125 :: t => some (.record [], t)
            | _ => (fields? fuel r).map fun p => (.record p.1, p.2)
          else none

/-- One or more values with commas between, and the bracket that ends them. -/
def items? : Nat → Bytes → Option (List Datum × Bytes)
  | 0, _ => none
  | fuel + 1, s => do
      let (d, r) ← value? fuel s
      match skipBlank r with
      | 44 :: t => do
          let (ds, u) ← items? fuel t
          return (d :: ds, u)
      | 93 :: t => return ([d], t)
      | _ => none

/-- One or more named values with commas between, and the brace that ends them. -/
def fields? : Nat → Bytes → Option (List (Option String × Datum) × Bytes)
  | 0, _ => none
  | fuel + 1, s =>
      match skipBlank s with
      | 34 :: r => do
          let (ps, r₁) ← pieces? r
          match skipBlank r₁ with
          | 58 :: r₂ => do
              let (d, r₃) ← value? fuel r₂
              match skipBlank r₃ with
              | 44 :: t => do
                  let (fs, u) ← fields? fuel t
                  return ((textOf? ps, d) :: fs, u)
              | 125 :: t => return ([(textOf? ps, d)], t)
              | _ => none
          | _ => none
      | _ => none

end

/-- Reads one value with nothing but blanks after it. -/
def read? (s : Bytes) : Option Datum := do
  let (d, r) ← value? (2 * s.length + 2) s
  if (skipBlank r).isEmpty then some d else none

/-! ### Writing -/

/-- The escape of a byte, where it needs one. -/
def escape (b : UInt8) : Bytes :=
  if b = 34 then [92, 34]
  else if b = 92 then [92, 92]
  else if b = 8 then [92, byte 'b']
  else if b = 9 then [92, byte 't']
  else if b = 10 then [92, byte 'n']
  else if b = 12 then [92, byte 'f']
  else if b = 13 then [92, byte 'r']
  else if b < 32 then
    [92, byte 'u', byte '0', byte '0', byte (Nat.digitChar (b.toNat / 16)),
      byte (Nat.digitChar (b.toNat % 16))]
  else [b]

/-- A string literal. -/
def writeString (s : String) : Bytes :=
  34 :: (Text.utf8 s).flatMap escape ++ [34]

/-- An integer. -/
def writeInt (n : Int) : Bytes :=
  (if n < 0 then [byte '-'] else []) ++ (Text.digits n.natAbs).map byte

mutual

/-- The compact form. What has no JSON form of its own is written as null. -/
def write : Datum → Bytes
  | .null => Text.utf8 "null"
  | .bool true => Text.utf8 "true"
  | .bool false => Text.utf8 "false"
  | .int n => writeInt n
  | .real => Text.utf8 "null"
  | .text (some s) => writeString s
  | .text none => Text.utf8 "null"
  | .list items => byte '[' :: writeItems items
  | .record fields => byte '{' :: writeFields fields

/-- The items of a list and its closing bracket. -/
def writeItems : List Datum → Bytes
  | [] => [byte ']']
  | [d] => write d ++ [byte ']']
  | d :: r => write d ++ byte ',' :: writeItems r

/-- The fields of a record and its closing brace. -/
def writeFields : List (Option String × Datum) → Bytes
  | [] => [byte '}']
  | [(name, d)] => writeString (name.getD "") ++ byte ':' :: write d ++ [byte '}']
  | (name, d) :: r => writeString (name.getD "") ++ byte ':' :: write d ++ byte ',' :: writeFields r

end

end Mintage.Json
