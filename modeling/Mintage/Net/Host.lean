import Mintage.Net.Ip
import Mintage.Net.Percent
import Mintage.Net.Punycode

/-!
Hosts of locators: domain names and internet addresses.

* `Host.readDomain?`: hosts of the well-known schemes. A host whose last label is a
  number has to be an address of version 4; letters are lower-cased, and labels that are
  not ASCII take their ASCII form.
* `Host.readPlain?`: hosts of other schemes, which keep their letters.
-/

namespace Mintage.Net

/-- A host. A name may be empty. -/
inductive Host where
  | name (s : List Char)
  | v4 (a : Ipv4)
  | v6 (a : Ipv6)
  deriving DecidableEq

namespace Host

/-- The host as it stands in a URL; an IPv6 address stands in brackets. -/
def chars : Host → List Char
  | name s => s
  | v4 a => a.chars
  | v6 a => '[' :: a.chars ++ [']']

/-- A name of no characters. -/
def isEmpty (h : Host) : Bool :=
  h.chars.isEmpty

/-! ### Numbers as hosts -/

/-- What a label says as a number: nothing, one that is too large, or a value. -/
inductive Numeral where
  | none
  | tooLarge
  | value (n : Nat)

/-- Digits in a base from 8 to 16. -/
def digits? (base : Nat) (s : List Char) : Option (List Nat) :=
  s.mapM fun c => (Bytes.hexValue? c).filter (· < base)

/-- Reads a decimal number, an octal one after `0`, or a hexadecimal one after `0x`. -/
def numeral (s : List Char) : Numeral :=
  let (base, body) := match s with
    | '0' :: 'x' :: r => (16, r)
    | '0' :: 'X' :: r => (16, r)
    | '0' :: c :: r => (8, c :: r)
    | _ => (10, s)
  if s.isEmpty then .none
  else
    match digits? base body with
    | some ds =>
        let n := ds.foldl (fun n d => base * n + d) 0
        if n < UInt32.size then .value n else .tooLarge
    | Option.none => .none

/-- The labels of a name, without an empty one at the end. -/
def labels (s : List Char) : List (List Char) :=
  let ls := Text.pieces '.' s
  if ls.getLast? = some [] ∧ 1 < ls.length then ls.dropLast else ls

/-- Whether the last label of a name is a number. -/
def endsInNumber (s : List Char) : Bool :=
  match (labels s).getLast? with
  | some l =>
      match numeral l with
      | .none => !l.isEmpty && l.all Char.isDigit
      | _ => true
  | Option.none => false

/-- The value of a piece that is a numeral. -/
def numeralValue? (s : List Char) : Option Nat :=
  match numeral s with
  | .value n => some n
  | _ => Option.none

/-- Puts numbers together: each is one byte, and the last one fills what is left. -/
def assemble? (ns : List Nat) : Option Ipv4 := do
  let last ← ns.getLast?
  let front := ns.dropLast
  if front.length ≤ 3 ∧ front.all (· < 256) ∧ last < Nat.pow 256 (4 - front.length) then
    some ⟨UInt32.ofNat
      (front.foldl (fun n d => 256 * n + d) 0 * Nat.pow 256 (4 - front.length) + last)⟩
  else Option.none

/-- Reads a name of up to four numbers as an address. -/
def readNumbers? (s : List Char) : Option Ipv4 := do
  assemble? (← (labels s).mapM numeralValue?)

/-! ### Names -/

/-- Characters that no domain name may contain. -/
def forbiddenInDomain (c : Char) : Bool :=
  c.toNat ≤ 0x20 || (0x7F ≤ c.toNat && c.toNat ≤ 0x9F) ||
    c ∈ ['#', '%', '/', ':', '<', '>', '?', '@', '[', '\\', ']', '^', '|']

/-- Characters that no host may contain. -/
def forbiddenInHost (c : Char) : Bool :=
  c ∈ ['\x00', '\t', '\n', '\r', ' ', '#', '/', ':', '<', '>', '?', '@', '[', '\\', ']', '^', '|']

/-- The character that stands for another one in names: letters of the Latin, Greek and
Cyrillic alphabets and full-width forms in lower case, and a plain full stop for the
other ones. -/
def fold (c : Char) : Char :=
  let n := c.toNat
  if 0x41 ≤ n ∧ n ≤ 0x5A then Char.ofNat (n + 32)
  else if 0xC0 ≤ n ∧ n ≤ 0xDE ∧ n ≠ 0xD7 then Char.ofNat (n + 32)
  else if 0x391 ≤ n ∧ n ≤ 0x3A9 then Char.ofNat (n + 32)
  else if 0x410 ≤ n ∧ n ≤ 0x42F then Char.ofNat (n + 32)
  else if 0x400 ≤ n ∧ n ≤ 0x40F then Char.ofNat (n + 80)
  else if 0xFF21 ≤ n ∧ n ≤ 0xFF3A then Char.ofNat (n - 0xFEE0 + 32)
  else if 0xFF01 ≤ n ∧ n ≤ 0xFF5E then Char.ofNat (n - 0xFEE0)
  else if n = 0x3002 ∨ n = 0xFF61 then '.'
  else c

/-- How a label in ASCII form begins. -/
def asciiMark : List Char := "xn--".toList

/-- The ASCII form of a label. One that has the mark must be the form of a label that
needs one. -/
def asciiLabel? (s : List Char) : Option (List Char) :=
  if s.all Punycode.isAscii then
    if asciiMark <+: s then
      match Punycode.decode? (s.drop asciiMark.length) with
      | some label =>
          if label.all Punycode.isAscii ∨ label.map fold ≠ label ∨ label.any forbiddenInDomain
            then Option.none
          else if asciiMark ++ Punycode.encode label = s then some s
          else Option.none
      | Option.none => Option.none
    else some s
  else if asciiMark <+: s then Option.none
  else some (asciiMark ++ Punycode.encode s)

/-- The ASCII form of a domain name. The soft hyphen counts for nothing. -/
def asciiName? (s : List Char) : Option (List Char) := do
  let folded := (s.filter fun c => c.toNat ≠ 0xAD).map fold
  if folded.any forbiddenInDomain then Option.none
  else return Text.join ['.'] (← (Text.pieces '.' folded).mapM asciiLabel?)

/-! ### Reading -/

/-- Reads an address of version 6 and the closing bracket. -/
def readBracketed? (s : List Char) : Option Host :=
  if s.getLast? = some ']' then (Ipv6.read? s.dropLast).map v6 else Option.none

/-- Reads a host of a well-known scheme. -/
def readDomain? : List Char → Option Host
  | '[' :: r => readBracketed? r
  | s => do
      let t ← Percent.decodeText? (String.ofList s)
      let n ← asciiName? t.toList
      if n.isEmpty then Option.none
      else if endsInNumber n then return v4 (← readNumbers? n)
      else return name n

/-- Reads a host of another scheme. -/
def readPlain? : List Char → Option Host
  | '[' :: r => readBracketed? r
  | s => if s.any forbiddenInHost then Option.none
      else some (name (Percent.encode Percent.control s))

end Host

end Mintage.Net
