import Mintage.Data.Packed
import Mintage.Proofs.Data.OrderedMap

/-!
Packed forms read back. A type is `LawfulPacked` when the packed form of each of its
values, with any bytes behind it, gives that value and leaves those bytes; so a packed
form is never the beginning of another one.

* `unpackCount?_packCount`: counts of any size read back.
* The instances for numbers, texts, lists, pairs, maps and optional values; those of the
  stored types build on them.
-/

namespace Mintage

open Packed

/-- A type whose values are read back from their packed forms, whatever follows. -/
class LawfulPacked (α : Type) [Packed α] : Prop where
  unpack_pack : ∀ (a : α) (r : Bytes), unpack? (pack a ++ r) = some (a, r)

attribute [simp] LawfulPacked.unpack_pack

namespace Packed

/-- The packed form of a value reads as that value. -/
lemma unpack?_pack {α : Type} [Packed α] [LawfulPacked α] (a : α) :
    unpack? (pack a) = some (a, []) := by
  have hread := LawfulPacked.unpack_pack a []
  rwa [List.append_nil] at hread

/-- The packed form of a value determines the value. -/
lemma pack_injective {α : Type} [Packed α] [LawfulPacked α] :
    Function.Injective (pack : α → Bytes) := fun a b h => by
  have hread := unpack?_pack a
  rw [h, unpack?_pack] at hread
  cases hread
  rfl

/-! ### Numbers and counts -/

/-- A number of fixed width reads back. -/
@[simp] lemma takeNat?_ofNatLE {width n : Nat} (h : n < Nat.pow 256 width) (r : Bytes) :
    takeNat? width (Bytes.ofNatLE width n ++ r) = some (n, r) := by
  rw [takeNat?, if_pos (by simp), List.take_left' (Bytes.length_ofNatLE ..),
    List.drop_left' (Bytes.length_ofNatLE ..), Bytes.toNatLE_ofNatLE h]

/-- Reading a count looks at its first eight bytes. -/
lemma unpackCount?_ofNatLE {n : Nat} (h : n < Nat.pow 256 8) (r : Bytes) :
    unpackCount? (Bytes.ofNatLE 8 n ++ r)
      = if n = countLimit then (unpackCount? r).map fun p => (countLimit + p.1, p.2)
        else some (n, r) := by
  have hn := Bytes.toNatLE_ofNatLE h
  simp only [Bytes.ofNatLE] at hn ⊢
  simp only [List.cons_append, List.nil_append, unpackCount?, hn]

lemma countLimit_pos : 0 < countLimit := by decide

/-- A count of any size reads back. -/
theorem unpackCount?_packCount (n : Nat) (r : Bytes) :
    unpackCount? (packCount n ++ r) = some (n, r) := by
  have hlimit : countLimit < Nat.pow 256 8 := by decide
  have hrem : n % countLimit < countLimit := Nat.mod_lt _ countLimit_pos
  -- one more full number in front counts `countLimit` more
  have key : ∀ q : Nat, unpackCount? ((List.replicate q (Bytes.ofNatLE 8 countLimit)).flatten
      ++ (Bytes.ofNatLE 8 (n % countLimit) ++ r)) = some (countLimit * q + n % countLimit, r) := by
    intro q
    induction q with
    | zero =>
        rw [List.replicate_zero, List.flatten_nil, List.nil_append,
          unpackCount?_ofNatLE (Nat.lt_trans hrem hlimit), if_neg (Nat.ne_of_lt hrem)]
        simp
    | succ q ih =>
        rw [List.replicate_succ, List.flatten_cons, List.append_assoc, unpackCount?_ofNatLE hlimit,
          if_pos rfl, ih, Option.map_some, Nat.mul_succ]
        simp only [Option.some.injEq, Prod.mk.injEq, and_true]
        omega
  rw [packCount, List.append_assoc, key, Nat.div_add_mod]

instance : LawfulPacked UInt8 where
  unpack_pack _ _ := rfl

instance : LawfulPacked UInt64 where
  unpack_pack n r := by
    show (takeNat? 8 (Bytes.ofNatLE 8 n.toNat ++ r)).map _ = _
    rw [takeNat?_ofNatLE n.toNat_lt_size]
    simp

instance : LawfulPacked Int64 where
  unpack_pack n r := by
    show (takeNat? 8 (Bytes.ofNatLE 8 n.toUInt64.toNat ++ r)).map _ = _
    rw [takeNat?_ofNatLE n.toUInt64.toNat_lt_size, Option.map_some, UInt64.ofNat_toNat,
      Int64.toInt64_toUInt64]

/-- The case of a choice reads back. -/
@[simp] lemma unpackTag?_packTag {n : Nat} (h : n < Nat.pow 256 4) (r : Bytes) :
    unpackTag? (packTag n ++ r) = some (n, r) :=
  takeNat?_ofNatLE h r

/-! ### Texts, lists and maps -/

lemma length_utf8 (s : String) : (Text.utf8 s).length = s.utf8ByteSize := by
  simp [Text.utf8, ← String.size_toByteArray]

instance : LawfulPacked String where
  unpack_pack s r := by
    show (do
      let (n, r) ← unpackCount? (packCount s.utf8ByteSize ++ Text.utf8 s ++ r)
      if n ≤ r.length then
        let t ← Text.ofUtf8? (r.take n)
        return (t, r.drop n)
      else none) = some (s, r)
    rw [List.append_assoc, unpackCount?_packCount]
    simp [← length_utf8, Text.ofUtf8?_utf8]

variable {α β : Type} [Packed α] [Packed β] [LawfulPacked α] [LawfulPacked β]

omit [Packed β] [LawfulPacked β] in
/-- A run of packed values reads back one by one. -/
lemma unpackMany?_flatMap (l : List α) (r : Bytes) :
    unpackMany? l.length (l.flatMap pack ++ r) = some (l, r) := by
  induction l with
  | nil => rfl
  | cons a l ih =>
      rw [List.length_cons, unpackMany?, List.flatMap_cons, List.append_assoc]
      simp [ih]

instance : LawfulPacked (List α) where
  unpack_pack l r := by
    show (do
      let (n, r) ← unpackCount? (packCount l.length ++ l.flatMap pack ++ r)
      unpackMany? n r) = some (l, r)
    rw [List.append_assoc, unpackCount?_packCount]
    exact unpackMany?_flatMap l r

instance : LawfulPacked (α × β) where
  unpack_pack p r := by
    simp [pack, unpack?, List.append_assoc, LawfulPacked.unpack_pack]

instance : LawfulPacked (OrderedMap String β) where
  unpack_pack m r := by
    show (do
      let (l, r) ← (unpack? (pack m.toList ++ r) : Option (List (String × β) × Bytes))
      return (OrderedMap.ofList l, r)) = some (m, r)
    simp [OrderedMap.ofList_toList]

instance : LawfulPacked (Option α) where
  unpack_pack a r := by
    cases a with
    | none => rfl
    | some a => simp [pack, unpack?, LawfulPacked.unpack_pack]

end Packed

end Mintage
