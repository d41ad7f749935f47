import Mintage.Data.Datum
import Mintage.Text.Digits
import Mintage.Text.Pieces
import Mintage.Text.Utf8

/-!
Words of a TOML text that stand for a truth value, a number or a point in time.

* `scalar?`: the value of a word. Integers keep their exact value, numbers with a point
  only have to be finite, and a point in time is a record with a field of its own.
-/

namespace Mintage.Toml

/-! ### Integers -/

/-- Digits with single underscores between, without those. -/
def ungroup? (isDigit : Char → Bool) (s : List Char) : Option (List Char) :=
  let groups := Text.pieces '_' s
  if groups.all fun g => !g.isEmpty && g.all isDigit then some groups.flatten else none

/-- The value of digits in a base. -/
def valueIn (base : Nat) (ds : List Char) : Nat :=
  ds.foldl (fun n c => base * n + (Bytes.hexValue? c).getD 0) 0

/-- A number in hexadecimal, octal or binary digits. -/
def basedNat? : List Char → Option Nat
  | '0' :: 'x' :: r => (ungroup? (fun c => (Bytes.hexValue? c).isSome) r).map (valueIn 16)
  | '0' :: 'o' :: r => (ungroup? (fun c => '0' ≤ c ∧ c ≤ '7') r).map (valueIn 8)
  | '0' :: 'b' :: r => (ungroup? (fun c => c == '0' || c == '1') r).map (valueIn 2)
  | _ => none

/-- Decimal digits without a zero in front of others. -/
def decimalDigits? (s : List Char) : Option (List Char) :=
  match ungroup? Char.isDigit s with
  | some ds => if ds.head? = some '0' ∧ 1 < ds.length then none else some ds
  | none => none

/-- A sign, where there is one, and what follows it. -/
def cutSign : List Char → Bool × List Char
  | '-' :: r => (true, r)
  | '+' :: r => (false, r)
  | s => (false, s)

/-- An integer of up to 128 bits. -/
def integer? (s : List Char) : Option Int := do
  let n ← match basedNat? s with
    | some n => pure (n : Int)
    | none =>
        let (negative, body) := cutSign s
        let n := valueIn 10 (← decimalDigits? body)
        pure (if negative then -(n : Int) else n)
  if -((1 <<< 127 : Nat) : Int) ≤ n ∧ n < ((1 <<< 128 : Nat) : Int) then return n else none

/-! ### Other numbers -/

/-- Whether `m` times ten to the power `e` is too large for a binary64. -/
def overflows (m : Nat) (e : Int) : Bool :=
  let size := (Nat.toDigits 10 m).length + e
  if m = 0 ∨ size < 300 then false
  else if 320 < size then true
  else
    let bound := 1 <<< 1024 - 1 <<< 970
    if 0 ≤ e then bound ≤ m * Nat.pow 10 e.toNat else bound * Nat.pow 10 (-e).toNat ≤ m

/-- The digits after the point, or none where there is no point. -/
def fraction? : Option (List Char) → Option (List Char)
  | none => some []
  | some s => ungroup? Char.isDigit s

/-- The exponent, or zero where there is none. -/
def exponent? : Option (List Char) → Option Int
  | none => some 0
  | some s => do
      let (negative, body) := cutSign s
      let n := valueIn 10 (← ungroup? Char.isDigit body)
      return if negative then -(n : Int) else n

/-- Whether a word is a finite number with a point or an exponent, or one of the words
for others. -/
def isReal (s : List Char) : Bool :=
  let (_, body) := cutSign s
  if body = "inf".toList ∨ body = "nan".toList then true
  else
    let (mantissa, exp) := match Text.splitAt? 'e' (body.map Char.toLower) with
      | some (a, b) => (a, some b)
      | none => (body, none)
    let (whole, frac) := match Text.splitAt? '.' mantissa with
      | some (a, b) => (a, some b)
      | none => (mantissa, none)
    if frac.isNone ∧ exp.isNone then false
    else
      match decimalDigits? whole, fraction? frac, exponent? exp with
      | some w, some f, some e => !overflows (valueIn 10 (w ++ f)) (e - f.length)
      | _, _, _ => false

/-! ### Points in time -/

/-- Reads a number of exactly so many digits. -/
def fixedNat? (width : Nat) (s : List Char) : Option Nat :=
  if s.length = width then Text.readNat? s else none

/-- Years with a 29th of February, in the Gregorian calendar. -/
def isLeapYear (y : Nat) : Bool :=
  y % 4 == 0 && (y % 100 != 0 || y % 400 == 0)

/-- The number of days in a month of a year. -/
def daysIn (y m : Nat) : Nat :=
  if m = 2 then (if isLeapYear y then 29 else 28)
  else if m ∈ [4, 6, 9, 11] then 30
  else 31

/-- A day of the calendar: year, month and day. -/
def isDate (s : List Char) : Bool :=
  match Text.pieces '-' s with
  | [y, m, d] =>
      match fixedNat? 4 y, fixedNat? 2 m, fixedNat? 2 d with
      | some y, some m, some d => 1 ≤ m && m ≤ 12 && 1 ≤ d && d ≤ daysIn y m
      | _, _, _ => false
  | _ => false

/-- Two digits each, for a time of the day without its seconds. -/
def isHourMinute (h m : List Char) : Bool :=
  match fixedNat? 2 h, fixedNat? 2 m with
  | some h, some m => h ≤ 23 && m ≤ 59
  | _, _ => false

/-- Seconds with perhaps a fraction; a minute may have a leap second. -/
def isSecond (s : List Char) : Bool :=
  let whole := s.take 2
  match fixedNat? 2 whole, s.drop 2 with
  | some n, [] => n ≤ 60
  | some n, '.' :: f => n ≤ 60 && !f.isEmpty && f.all Char.isDigit
  | _, _ => false

/-- A time of day; the seconds may be left out. -/
def isTime (s : List Char) : Bool :=
  match Text.pieces ':' s with
  | [h, m] => isHourMinute h m
  | [h, m, t] => isHourMinute h m && isSecond t
  | _ => false

/-- A time of day with perhaps the distance from universal time. -/
def isZonedTime (s : List Char) : Bool :=
  match s.reverse with
  | z :: r => if z = 'Z' ∨ z = 'z' then isTime r.reverse else isTime s || hasOffset s
  | [] => false
where
  hasOffset (s : List Char) : Bool :=
    let n := s.length - 6
    match s.drop n with
    | sign :: zone =>
        (sign == '+' || sign == '-') && isTime (s.take n) && isTime zone && zone.length == 5
    | [] => false

/-- A day, a time of day, or both. -/
def isDateTime (s : List Char) : Bool :=
  isTime s || isDate s ||
    (isDate (s.take 10) &&
      match s.drop 10 with
      | sep :: r => (sep == 'T' || sep == 't' || sep == ' ') && isZonedTime r
      | [] => false)

/-! ### Words -/

/-- Characters that words consist of. -/
def isWordChar (c : Char) : Bool :=
  c.isAlphanum || c ∈ ['+', '-', '.', ':', '_']

/-- The word that a text begins with, and what follows it. A blank may stand between a
day and a time. -/
def cutWord (s : List Char) : List Char × List Char :=
  let word := s.takeWhile isWordChar
  let rest := s.dropWhile isWordChar
  match rest with
  | ' ' :: r =>
      if isDate word ∧ r.head?.any Char.isDigit
        then (word ++ ' ' :: r.takeWhile isWordChar, r.dropWhile isWordChar)
      else (word, rest)
  | _ => (word, rest)

/-- The value of a word. -/
def scalar? (word : List Char) : Option Datum :=
  if word = "true".toList then some (.bool true)
  else if word = "false".toList then some (.bool false)
  else
    match integer? word with
    | some n => some (.int n)
    | none =>
        if isReal word then some .real
        else if isDateTime word then some (.object [("$date", .ofString (String.ofList word))])
        else none

end Mintage.Toml
