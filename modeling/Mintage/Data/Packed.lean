import Mintage.Data.OrderedMap
import Mintage.Text.Utf8

/-!
The packed binary form in which values are stored: fixed eight-byte numbers with the
least significant byte first, a count in front of texts, lists and maps, one byte to
tell whether an optional value is there, and four bytes to tell which case of a choice
follows. Reading a value leaves the bytes after it.

* `packCount`: a count takes eight bytes. The greatest eight-byte number says that the
  count goes on behind it, so that every list has a packed form of its own; no machine
  holds a list that long.
-/

namespace Mintage

/-- A type with a packed form. -/
class Packed (α : Type) where
  pack : α → Bytes
  unpack? : Bytes → Option (α × Bytes)

namespace Packed

/-! ### Numbers -/

/-- The number in the first `width` bytes, and the bytes after them. -/
def takeNat? (width : Nat) (s : Bytes) : Option (Nat × Bytes) :=
  if width ≤ s.length then some (Bytes.toNatLE (s.take width), s.drop width) else none

instance : Packed UInt8 where
  pack b := [b]
  unpack?
    | [] => none
    | b :: r => some (b, r)

instance : Packed UInt64 where
  pack n := Bytes.ofNatLE 8 n.toNat
  unpack? s := (takeNat? 8 s).map fun p => (UInt64.ofNat p.1, p.2)

instance : Packed Int64 where
  pack n := Bytes.ofNatLE 8 n.toUInt64.toNat
  unpack? s := (takeNat? 8 s).map fun p => ((UInt64.ofNat p.1).toInt64, p.2)

/-! ### Counts -/

/-- The first count that eight bytes do not hold. -/
def countLimit : Nat := UInt64.size - 1

/-- A count of what follows. -/
def packCount (n : Nat) : Bytes :=
  (List.replicate (n / countLimit) (Bytes.ofNatLE 8 countLimit)).flatten
    ++ Bytes.ofNatLE 8 (n % countLimit)

/-- Reads a count. -/
def unpackCount? : Bytes → Option (Nat × Bytes)
  | a :: b :: c :: d :: e :: f :: g :: h :: r =>
      let n := Bytes.toNatLE [a, b, c, d, e, f, g, h]
      if n = countLimit then (unpackCount? r).map fun p => (countLimit + p.1, p.2) else some (n, r)
  | _ => none

/-! ### Texts, lists and maps -/

instance : Packed String where
  pack s := packCount s.utf8ByteSize ++ Text.utf8 s
  unpack? s := do
    let (n, r) ← unpackCount? s
    if n ≤ r.length then
      let t ← Text.ofUtf8? (r.take n)
      return (t, r.drop n)
    else none

variable {α β : Type} [Packed α] [Packed β]

/-- Reads a given number of values. -/
def unpackMany? : Nat → Bytes → Option (List α × Bytes)
  | 0, s => some ([], s)
  | n + 1, s => do
      let (a, r) ← unpack? s
      let (as, t) ← unpackMany? n r
      return (a :: as, t)

instance : Packed (List α) where
  pack l := packCount l.length ++ l.flatMap pack
  unpack? s := do
    let (n, r) ← unpackCount? s
    unpackMany? n r

instance : Packed (α × β) where
  pack p := pack p.1 ++ pack p.2
  unpack? s := do
    let (a, r) ← unpack? s
    let (b, t) ← unpack? r
    return ((a, b), t)

instance : Packed (OrderedMap String β) where
  pack m := pack m.toList
  unpack? s := do
    let (l, r) ← (unpack? s : Option (List (String × β) × Bytes))
    return (OrderedMap.ofList l, r)

/-! ### Choices -/

instance : Packed (Option α) where
  pack
    | none => [0]
    | some a => 1 :: pack a
  unpack?
    | 0 :: r => some (none, r)
    | 1 :: r => (unpack? r).map fun p => (some p.1, p.2)
    | _ => none

/-- The case of a choice. -/
def packTag (n : Nat) : Bytes :=
  Bytes.ofNatLE 4 n

/-- Reads the case of a choice. -/
def unpackTag? (s : Bytes) : Option (Nat × Bytes) :=
  takeNat? 4 s

end Packed

end Mintage
