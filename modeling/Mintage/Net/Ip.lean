import Mintage.Text.Digits
import Mintage.Text.Pieces
import Mintage.Text.Utf8

/-!
Internet addresses of both versions and their text.

* `Ipv4.read?`: four numbers from 0 to 255 without zeros in front.
* `Ipv6.read?`: eight groups of up to four hexadecimal digits. The last two may be
  written as an address of the older version, and `::` stands for one or more groups
  that are zero.
* `Ipv6.chars`: the longest run of at least two zero groups is left out, the first of
  equally long ones.
-/

namespace Mintage.Net

/-! ### Version 4 -/

/-- An address of version 4, as a 32-bit number. -/
structure Ipv4 where
  value : UInt32
  deriving DecidableEq

namespace Ipv4

/-- The four numbers of an address. -/
def octets (a : Ipv4) : List Nat :=
  let n := a.value.toNat
  [n >>> 24, n >>> 16 % 256, n >>> 8 % 256, n % 256]

/-- The address with the given numbers, where there are four of one byte each. -/
def ofOctets? : List Nat → Option Ipv4
  | [a, b, c, d] =>
      if a < 256 ∧ b < 256 ∧ c < 256 ∧ d < 256 then
        some ⟨UInt32.ofNat (((a * 256 + b) * 256 + c) * 256 + d)⟩
      else none
  | _ => none

/-- The numbers of an address with points between. -/
def chars (a : Ipv4) : List Char :=
  Text.join ['.'] (a.octets.map Text.digits)

/-- Reads one number of an address. -/
def readOctet? (s : List Char) : Option Nat :=
  if s.length ≤ 3 ∧ ¬ (s.head? = some '0' ∧ 1 < s.length) then Text.readNat? s else none

/-- Four decimal octets with dots between them. -/
def read? (s : List Char) : Option Ipv4 := do
  ofOctets? (← (Text.pieces '.' s).mapM readOctet?)

end Ipv4

/-! ### Version 6 -/

/-- An address of version 6, as eight groups of 16 bits. -/
structure Ipv6 where
  groups : List UInt16
  length_eq : groups.length = 8
  deriving DecidableEq

namespace Ipv6

/-- An address of eight groups. -/
def ofGroups? (gs : List UInt16) : Option Ipv6 :=
  if h : gs.length = 8 then some ⟨gs, h⟩ else none

/-! ### Writing -/

/-- The start and the length of the longest run of zeros, the first of equally long ones. -/
def longestZeros : List UInt16 → Nat × Nat
  | [] => (0, 0)
  | g :: r =>
      let here := ((g :: r).takeWhile (· == 0)).length
      let later := longestZeros r
      if later.2 ≤ here then (0, here) else (later.1 + 1, later.2)

/-- Groups in hexadecimal with colons between. -/
def groupChars (gs : List UInt16) : List Char :=
  Text.join [':'] (gs.map fun g => Nat.toDigits 16 g.toNat)

/-- The groups in hexadecimal, the longest row of zeros left out. -/
def chars (a : Ipv6) : List Char :=
  let (start, n) := longestZeros a.groups
  if n < 2 then groupChars a.groups
  else groupChars (a.groups.take start) ++ ':' :: ':' :: groupChars (a.groups.drop (start + n))

/-- The address of version 4 that an address stands for, if it stands for one. -/
def embedded? (a : Ipv6) : Option Ipv4 :=
  match a.groups with
  | [0, 0, 0, 0, 0, 0xFFFF, hi, lo] => some ⟨UInt32.ofNat (hi.toNat * 65536 + lo.toNat)⟩
  | _ => none

/-- The form that shows an embedded address of version 4 as such. -/
def mixedChars (a : Ipv6) : List Char :=
  match a.embedded? with
  | some b => "::ffff:".toList ++ b.chars
  | none => a.chars

/-! ### Reading -/

/-- Reads one group. -/
def readGroup? (s : List Char) : Option UInt16 := do
  let ds ← s.mapM Bytes.hexValue?
  if 1 ≤ ds.length ∧ ds.length ≤ 4
    then some (UInt16.ofNat (ds.foldl (fun n d => 16 * n + d) 0)) else none

/-- Reads groups; the last piece may be an address of version 4 and then makes two of
them. -/
def readGroups? : List (List Char) → Option (List UInt16)
  | [] => some []
  | [s] =>
      if '.' ∈ s then do
        let a ← Ipv4.read? s
        return [UInt16.ofNat (a.value.toNat / 65536), UInt16.ofNat (a.value.toNat % 65536)]
      else do return [← readGroup? s]
  | s :: r => do return (← readGroup? s) :: (← readGroups? r)

/-- The pieces between colons; an empty text has none. -/
def groupPieces (s : List Char) : List (List Char) :=
  if s.isEmpty then [] else Text.pieces ':' s

/-- The text before and after the first pair of colons. -/
def cutAtGap? : List Char → Option (List Char × List Char)
  | ':' :: ':' :: r => some ([], r)
  | c :: r => (cutAtGap? r).map fun p => (c :: p.1, p.2)
  | [] => none

/-- Eight groups in hexadecimal, or fewer around one gap. -/
def read? (s : List Char) : Option Ipv6 :=
  match cutAtGap? s with
  | none => do ofGroups? (← readGroups? (Text.pieces ':' s))
  | some (front, back) => do
      let gs ← (groupPieces front).mapM readGroup?
      let hs ← readGroups? (groupPieces back)
      if gs.length + hs.length ≤ 7 then
        ofGroups? (gs ++ List.replicate (8 - gs.length - hs.length) 0 ++ hs)
      else none

end Ipv6

end Mintage.Net
