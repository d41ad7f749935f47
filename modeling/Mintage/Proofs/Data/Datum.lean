import Mathlib.Tactic.Lemma
import Mintage.Proofs.Data.Json
import Mintage.Proofs.Data.OrderedMap

/-!
Types whose values come back from the data that they are written as.

* `Faithful`, `Faithful.readBack`: a reader that undoes a writer on data, and so on JSON
  texts.
* `Faithful.string`, `Faithful.uint64`, …: the basic types, and lists, maps and optional
  values of faithful types.
* `Datum.slots?_object`: the fields of a record, in the order of its type, each go to their
  own slot.
-/

namespace Mintage

open Datum

/-- A type whose values are written as plain data and read back from them. -/
structure Faithful {α : Type} (write : α → Datum) (read : Datum → Option α) : Prop where
  plain : ∀ a, (write a).Plain
  reads : ∀ a, read (write a) = some a

/-- A type whose values come back from the JSON texts that they are written as. -/
def ReadBack {α : Type} (write : α → Datum) (read : Datum → Option α) : Prop :=
  ∀ a, (Json.read? (Json.write (write a))).bind read = some a

namespace Faithful

variable {α : Type} {write : α → Datum} {read : Datum → Option α}

/-- **What comes back from data** comes back from JSON texts. -/
theorem readBack (h : Faithful write read) : ReadBack write read := by
  intro a
  rw [Json.read?_write (h.plain a), Option.bind_some, h.reads]

/-! ### Basic types -/

lemma string : Faithful ofString asString? := ⟨.text, fun _ => rfl⟩

lemma uint64 : Faithful ofUInt64 asUInt64? where
  plain _ := .int _
  reads _ := Word.ofInt?_eq_some_iff.2 rfl

lemma int64 : Faithful ofInt64 asInt64? where
  plain _ := .int _
  reads _ := Word.signed?_eq_some_iff.2 rfl

lemma byte : Faithful (fun b : UInt8 => .int b.toNat) asUInt8? where
  plain _ := .int _
  reads b := by
    have hb := b.toNat_lt
    rw [asUInt8?, if_pos (by omega), Int.toNat_natCast, UInt8.ofNat_toNat]

/-! ### Lists, maps and optional values -/

lemma list (h : Faithful write read) : Faithful (fun l => .list (l.map write)) (asList? read) where
  plain l := .list fun d hd => by
    obtain ⟨a, -, rfl⟩ := List.mem_map.1 hd
    exact h.plain a
  reads l := by
    show (l.map write).mapM read = some l
    induction l with
    | nil => rfl
    | cons a l ih => simp [h.reads, ih]

lemma option (h : Faithful write read) (hnull : ∀ a, write a ≠ .null) :
    Faithful (ofOption write) (asOption? read) where
  plain
    | none => .null
    | some a => h.plain a
  reads
    | none => rfl
    | some a => by
        have hsome := h.reads a
        have hne := hnull a
        rw [ofOption]
        cases hd : write a with
        | null => exact absurd hd hne
        | _ => rw [← hd, asOption?, hsome]; rfl; simpa using hne

/-- Fields that all read are stored one after the other. -/
lemma mapFrom?_fields (h : Faithful write read) (l : List (String × α)) (m : OrderedMap String α) :
    mapFrom? read m (l.map fun e => (some e.1, write e.2))
      = some (l.foldl (fun n e => n.insert e.1 e.2) m) := by
  induction l generalizing m with
  | nil => rfl
  | cons e l ih => rw [List.map_cons, mapFrom?, h.reads, Option.bind_some, ih]; rfl

lemma map (h : Faithful write read) : Faithful (ofMap write) (asMap? read) where
  plain m := .object fun f hf => by
    obtain ⟨e, -, rfl⟩ := List.mem_map.1 hf
    exact h.plain e.2
  reads m := by
    rw [ofMap, object, asMap?, List.map_map]
    exact (mapFrom?_fields h m.toList OrderedMap.empty).trans
      (congrArg some (OrderedMap.ofList_toList m))

end Faithful

/-! ### Records of a known type -/

namespace Datum

/-- Fields that belong to the slots from one place on fill these. -/
lemma fillSlots?_fields {names : List (List String)} (filled : List (Option Datum))
    {fields : List (String × Datum)}
    (hnames : fields.map (fun f => slotIndex? names f.1)
      = (List.range' filled.length fields.length).map some) :
    fillSlots? names (filled ++ List.replicate fields.length none)
        (fields.map fun f => (some f.1, f.2))
      = some (filled ++ fields.map fun f => some f.2) := by
  induction fields generalizing filled with
  | nil => rfl
  | cons f fields ih =>
      rw [List.map_cons, List.length_cons, List.range'_succ, List.map_cons,
        List.cons.injEq] at hnames
      obtain ⟨hfirst, hrest⟩ := hnames
      have hslot : (filled ++ List.replicate (fields.length + 1) none)[filled.length]?
          = some none := by simp
      have hset : (filled ++ List.replicate (fields.length + 1) none).set filled.length (some f.2)
          = (filled ++ [some f.2]) ++ List.replicate fields.length none := by
        simp [List.replicate_succ]
      rw [List.map_cons, fillSlots?, hfirst]
      simp only [List.length_cons, hslot, hset]
      rw [ih (filled ++ [some f.2]) (by simpa using hrest), List.append_assoc]
      rfl

/-- **The fields of a record**, in the order of its type, each go to their own slot. -/
theorem slots?_object {names : List (List String)} {fields : List (String × Datum)}
    (hnames : fields.map (fun f => slotIndex? names f.1)
      = (List.range names.length).map some) (exact : Bool) :
    (object fields).slots? exact names = some ⟨false, fields.map fun f => some f.2⟩ := by
  have hlength : fields.length = names.length := by simpa using congrArg List.length hnames
  have hempty : (names.map fun _ => none) = List.replicate fields.length (none : Option Datum) := by
    rw [hlength, List.map_const']
  have hfill := fillSlots?_fields []
    (hnames.trans (by rw [hlength, List.range_eq_range', List.length_nil]))
  rw [object, slots?, hempty]
  exact congrArg (Option.map _) hfill

end Datum

end Mintage
