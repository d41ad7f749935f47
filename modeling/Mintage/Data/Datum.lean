import Mintage.Data.OrderedMap
import Mintage.Number.Word

/-!
Structured data: what a text in a data format says, before it is read as a value of some
type. Records keep their fields in the order written, repetitions included, so that each
reader decides what those mean.

* `Datum.asMap?`: the last field of a name counts.
* `Datum.slots?`: the fields of a record type, taken from a record by name or from a
  list by position; a field written twice is refused and an unknown one passed over.
-/

namespace Mintage

/-- What a text in a data format says. -/
inductive Datum where
  | null
  | bool (b : Bool)
  | int (n : Int)
  /-- A number that is not written as an integer. -/
  | real
  /-- A string literal, and nothing where it denotes no Unicode text. -/
  | text (s : Option String)
  | list (items : List Datum)
  | record (fields : List (Option String × Datum))

namespace Datum

instance : Inhabited Datum := ⟨null⟩

/-! ### Making -/

/-- A string literal that denotes a text. -/
def ofString (s : String) : Datum := text (some s)

/-- An unsigned word as an integer. -/
def ofUInt64 (n : UInt64) : Datum := int n.toNat

/-- A signed word as an integer. -/
def ofInt64 (n : Int64) : Datum := int n.toInt

/-- Absent values are null. -/
def ofOption {α : Type} (f : α → Datum) : Option α → Datum
  | some a => f a
  | none => null

/-- A record with the given fields. -/
def object (fields : List (String × Datum)) : Datum :=
  record (fields.map fun p => (some p.1, p.2))

/-- A record with one field for each entry of a map. -/
def ofMap {α : Type} (f : α → Datum) (m : OrderedMap String α) : Datum :=
  object (m.toList.map fun e => (e.1, f e.2))

/-! ### Reading -/

/-- A truth value. -/
def asBool? : Datum → Option Bool
  | bool b => some b
  | _ => none

/-- The text that a string literal denotes. -/
def asString? : Datum → Option String
  | text s => s
  | _ => none

/-- An integer from 0 to 2⁶⁴ - 1. -/
def asUInt64? : Datum → Option UInt64
  | int n => Word.ofInt? n
  | _ => none

/-- An integer from -2⁶³ to 2⁶³ - 1. -/
def asInt64? : Datum → Option Int64
  | int n => Word.signed? n
  | _ => none

/-- An integer from 0 to 255. -/
def asUInt8? : Datum → Option UInt8
  | int n => if 0 ≤ n ∧ n < 256 then some (UInt8.ofNat n.toNat) else none
  | _ => none

/-- A list whose items all read. -/
def asList? {α : Type} (f : Datum → Option α) : Datum → Option (List α)
  | list items => items.mapM f
  | _ => none

/-- Null is an absent value. -/
def asOption? {α : Type} (f : Datum → Option α) : Datum → Option (Option α)
  | null => some none
  | d => (f d).map some

/-- Stores fields one by one; each needs a name, and a value that reads. -/
def mapFrom? {α : Type} (f : Datum → Option α) (m : OrderedMap String α) :
    List (Option String × Datum) → Option (OrderedMap String α)
  | [] => some m
  | (some k, d) :: r => (f d).bind fun a => mapFrom? f (m.insert k a) r
  | (none, _) :: _ => none

/-- A record as a map from names; the last field of a name counts. -/
def asMap? {α : Type} (f : Datum → Option α) : Datum → Option (OrderedMap String α)
  | record fields => mapFrom? f OrderedMap.empty fields
  | _ => none

/-! ### Records of a known type -/

/-- The fields of a record type, in order; the missing ones are absent. -/
structure Slots where
  /-- Whether the fields were given by position. -/
  positional : Bool
  values : List (Option Datum)

/-- The place of a field among those known, each of which may go by several names. -/
def slotIndex? (names : List (List String)) (name : String) : Option Nat :=
  names.findIdx? fun aliases => aliases.contains name

/-- Puts fields into their slots; a slot can be filled once, and every field must have a
name. -/
def fillSlots? (names : List (List String)) (slots : List (Option Datum)) :
    List (Option String × Datum) → Option (List (Option Datum))
  | [] => some slots
  | (none, _) :: _ => none
  | (some name, d) :: r =>
      match slotIndex? names name with
      | none => fillSlots? names slots r
      | some i =>
          match slots[i]? with
          | some none => fillSlots? names (slots.set i (some d)) r
          | _ => none

/-- The slots of a record type: a record gives them by name and a list by position.
Where `exact` is set, a list may not be longer than the type has fields. -/
def slots? (exact : Bool) (names : List (List String)) : Datum → Option Slots
  | record fields => (fillSlots? names (names.map fun _ => none) fields).map (⟨false, ·⟩)
  | list items =>
      if exact ∧ names.length < items.length then none
      else some ⟨true, (items.take names.length).map some ++
        List.replicate (names.length - items.length) none⟩
  | _ => none

/-- A field that must be there. -/
def Slots.required {α : Type} (s : Slots) (i : Nat) (f : Datum → Option α) : Option α :=
  match s.values[i]? with
  | some (some d) => f d
  | _ => none

/-- A field with a default for when it is missing. -/
def Slots.withDefault {α : Type} (s : Slots) (i : Nat) (f : Datum → Option α) (a : α) : Option α :=
  match s.values[i]? with
  | some (some d) => f d
  | _ => some a

/-- A field that may be null; left out of a record it is absent, but a position may not
be left out. -/
def Slots.optional {α : Type} (s : Slots) (i : Nat) (f : Datum → Option α) : Option (Option α) :=
  match s.values[i]? with
  | some (some d) => asOption? f d
  | _ => if s.positional then none else some none

end Datum

end Mintage
