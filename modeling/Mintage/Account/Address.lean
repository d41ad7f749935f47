import Mintage.Money.Coins
import Mintage.Text.Utf8

/-!
Account addresses: a prefix, the separator `1`, and at least six characters of the
address alphabet. The bytes of an address are those of its text from the separator on.

* `Address.parse`: refuses, in this order, a text that is too long, has capitals, has
  another prefix, has no separator, is too short, or has a character outside the
  alphabet.
-/

namespace Mintage

/-- An account address: its text, and the bytes that name the account. -/
structure Address where
  encoded : String
  bytes : Bytes
  deriving DecidableEq

/-- Why a text is no address. -/
inductive AddressReason where
  | tooLong
  | capitals
  | wrongPrefix
  | noSeparator
  | tooShort
  | badCharacter (c : Char)
  deriving DecidableEq

/-- The reason in words. -/
def AddressReason.message : AddressReason → String
  | .tooLong => "too long"
  | .capitals => "must be lowercase"
  | .wrongPrefix => "wrong prefix"
  | .noSeparator => "missing separator"
  | .tooShort => "data part too short"
  | .badCharacter c => "invalid character '" ++ String.singleton c ++ "'"

namespace Address

/-- The characters that may stand after the separator. -/
def alphabet : List Char :=
  "qpzry9x8gf2tvdw0s3jn54khce6mua7l".toList

/-- Stands between the prefix and the data. -/
def separator : Char := '1'

/-- The most bytes that the text of an address may have. -/
def maxLength : Nat := 90

/-- The fewest bytes that may follow the separator. -/
def minDataLength : Nat := 6

/-- The number of bytes in the UTF-8 form of characters. -/
def byteLength (s : List Char) : Nat :=
  s.foldr (fun c n => c.utf8Size + n) 0

/-- Checks what follows the prefix. -/
def checkRest : List Char → Except AddressReason Unit
  | [] => .error .noSeparator
  | c :: data =>
      if c ≠ separator then .error .noSeparator
      else if byteLength data < minDataLength then .error .tooShort
      else
        match data.find? fun x => !alphabet.contains x with
        | some x => .error (.badCharacter x)
        | none => .ok ()

/-- Reads an address with the given prefix. -/
def parse (text addressPrefix : String) : Except AddressReason Address :=
  let chars := text.toList
  let pre := addressPrefix.toList
  if maxLength < text.utf8ByteSize then .error .tooLong
  else if chars.any Char.isUpper then .error .capitals
  else if ¬ pre <+: chars then .error .wrongPrefix
  else
    match checkRest (chars.drop pre.length) with
    | .error e => .error e
    | .ok () => .ok ⟨text, Text.utf8 (String.ofList (chars.drop pre.length))⟩

/-- The bytes in hexadecimal. -/
def hex (a : Address) : String :=
  Bytes.hex a.bytes

end Address

end Mintage
