import Mathlib.Tactic.Lemma
import Mintage.Proofs.Data.Datum
import Mintage.Proofs.Number.Dec
import Mintage.Wire.Query
import Mintage.Wire.Schedule

/-!
Each type that has a wire form is read back from it.

* `Dec.faithful`, `Params.faithful`, …: money, parameters and blocks.
* `Account.faithful`: accounts of every kind, as records named for it.
* `Snapshot.faithful`: the feed's snapshots, each field of which has a default.
* `Snapshot.ofDatum?_feedNames`: a snapshot reads the same under either name of its time.
-/

namespace Mintage

open Datum

/-! ### Money, parameters and blocks -/

lemma Dec.faithful : Faithful Dec.toDatum Dec.ofDatum? where
  plain d := .text d.text
  reads d := by
    rw [Dec.ofDatum?, Dec.toDatum, Faithful.string.reads, Option.bind_some, Dec.ofString?_text]

lemma Coin.faithful : Faithful Coin.toDatum Coin.ofDatum? where
  plain c := .object (by simp [Faithful.string.plain, Faithful.uint64.plain])
  reads c := by
    rw [Coin.ofDatum?, Coin.toDatum, slots?_object rfl]
    simp [Slots.required, Faithful.string.reads, Faithful.uint64.reads]

lemma Coins.faithful : Faithful Coins.toDatum Coins.ofDatum? :=
  .map .uint64

lemma Params.faithful : Faithful Params.toDatum Params.ofDatum? where
  plain p := .object (by
    simp [Faithful.string.plain, Faithful.uint64.plain, Dec.faithful.plain])
  reads p := by
    rw [Params.ofDatum?, Params.toDatum, slots?_object rfl]
    simp [Slots.required, Faithful.string.reads, Faithful.uint64.reads, Dec.faithful.reads]

lemma Minter.faithful : Faithful Minter.toDatum Minter.ofDatum? where
  plain m := .object (by simp [Dec.faithful.plain])
  reads m := by
    rw [Minter.ofDatum?, Minter.toDatum, slots?_object rfl]
    simp [Slots.required, Dec.faithful.reads]

lemma Genesis.faithful : Faithful Genesis.toDatum Genesis.ofDatum? where
  plain g := .object (by simp [Minter.faithful.plain, Params.faithful.plain])
  reads g := by
    rw [Genesis.ofDatum?, Genesis.toDatum, slots?_object rfl]
    simp [Slots.required, Minter.faithful.reads, Params.faithful.reads]

lemma MintEvent.faithful : Faithful MintEvent.toDatum MintEvent.ofDatum? where
  plain e := .object (by simp [Dec.faithful.plain, Faithful.uint64.plain])
  reads e := by
    rw [MintEvent.ofDatum?, MintEvent.toDatum, slots?_object rfl]
    simp [Slots.required, Dec.faithful.reads, Faithful.uint64.reads]

/-! ### Accounts and mint records -/

lemma Bytes.faithful : Faithful Bytes.toDatum Bytes.ofDatum? :=
  .list .byte

lemma Address.faithful : Faithful Address.toDatum Address.ofDatum? where
  plain a := .object (by simp [Faithful.string.plain, Bytes.faithful.plain])
  reads a := by
    rw [Address.ofDatum?, Address.toDatum, slots?_object rfl]
    simp [Slots.required, Faithful.string.reads, Bytes.faithful.reads]

lemma BaseAccount.faithful : Faithful BaseAccount.toDatum BaseAccount.ofDatum? := by
  have hkey : Faithful (ofOption Bytes.toDatum) (asOption? Bytes.ofDatum?) :=
    .option Bytes.faithful nofun
  constructor
  · intro b
    exact .object (by simp [Address.faithful.plain, hkey.plain, Faithful.uint64.plain])
  · intro b
    rw [BaseAccount.ofDatum?, BaseAccount.toDatum, slots?_object rfl]
    simp [Slots.required, Slots.optional, Address.faithful.reads, hkey.reads,
      Faithful.uint64.reads]

lemma Period.faithful : Faithful Period.toDatum Period.ofDatum? where
  plain p := .object (by simp [Faithful.int64.plain, Coins.faithful.plain])
  reads p := by
    rw [Period.ofDatum?, Period.toDatum, slots?_object rfl]
    simp [Slots.required, Faithful.int64.reads, Coins.faithful.reads]

namespace Account

lemma plain_body (a : Account) : a.body.Plain := by
  cases a with
  | plain base => exact BaseAccount.faithful.plain base
  | delayed base locked endTime =>
      exact .object (by
        simp [BaseAccount.faithful.plain, Coins.faithful.plain, Faithful.int64.plain])
  | periodic base locked start endTime periods =>
      exact .object (by
        simp [BaseAccount.faithful.plain, Coins.faithful.plain, Faithful.int64.plain,
          Period.faithful.list.plain])

lemma plainOfDatum?_body (base : BaseAccount) :
    plainOfDatum? (body (.plain base)) = some (.plain base) := by
  simp [plainOfDatum?, body, BaseAccount.faithful.reads]

lemma delayedOfDatum?_body (base : BaseAccount) (locked : Coins) (endTime : Int64) :
    delayedOfDatum? (body (.delayed base locked endTime))
      = some (.delayed base locked endTime) := by
  rw [delayedOfDatum?, body, slots?_object rfl]
  simp [Slots.required, BaseAccount.faithful.reads, Coins.faithful.reads, Faithful.int64.reads]

lemma periodicOfDatum?_body (base : BaseAccount) (locked : Coins) (start endTime : Int64)
    (periods : List Period) :
    periodicOfDatum? (body (.periodic base locked start endTime periods))
      = some (.periodic base locked start endTime periods) := by
  rw [periodicOfDatum?, body, slots?_object rfl]
  simp [Slots.required, BaseAccount.faithful.reads, Coins.faithful.reads, Faithful.int64.reads,
    Period.faithful.list.reads]

/-- An account of any kind: the name of the only field tells how to read it. -/
lemma faithful : Faithful Account.toDatum Account.ofDatum? where
  plain a := .object (by simp [plain_body])
  reads
    | plain base => plainOfDatum?_body base
    | delayed base locked endTime => delayedOfDatum?_body base locked endTime
    | periodic base locked start endTime periods =>
        periodicOfDatum?_body base locked start endTime periods

end Account

lemma MintRecord.faithful : Faithful MintRecord.toDatum MintRecord.ofDatum? where
  plain r := .object (by
    simp [Faithful.uint64.plain, Faithful.string.plain, Coins.faithful.plain])
  reads r := by
    rw [MintRecord.ofDatum?, MintRecord.toDatum, slots?_object rfl]
    simp [Slots.required, Faithful.uint64.reads, Faithful.string.reads, Coins.faithful.reads]

/-! ### Answers to queries -/

lemma NodeStatus.faithful : Faithful NodeStatus.toDatum NodeStatus.ofDatum? := by
  have hheight : Faithful (ofOption ofUInt64) (asOption? asUInt64?) := .option .uint64 nofun
  have htime : Faithful (ofOption ofInt64) (asOption? asInt64?) := .option .int64 nofun
  constructor
  · intro s
    exact .object (by
      simp [hheight.plain, htime.plain, Coins.faithful.plain, Faithful.uint64.list.plain])
  · intro s
    rw [NodeStatus.ofDatum?, NodeStatus.toDatum, slots?_object rfl]
    simp [Slots.required, Slots.optional, hheight.reads, htime.reads, Coins.faithful.reads,
      Faithful.uint64.list.reads]

lemma interval_faithful : Faithful intervalToDatum intervalOfDatum? where
  plain d := .object (by simp [Dec.faithful.plain])
  reads d := by
    rw [intervalOfDatum?, intervalToDatum, slots?_object rfl]
    simp [Slots.required, Dec.faithful.reads]

/-! ### The feed -/

lemma Mint.faithful : Faithful Mint.toDatum Mint.ofDatum? where
  plain m := .object (by
    simp [Faithful.string.plain, Faithful.int64.plain, Faithful.uint64.plain])
  reads m := by
    rw [Mint.ofDatum?, Mint.toDatum, slots?_object rfl]
    simp [Slots.required, Faithful.string.reads, Faithful.int64.reads, Faithful.uint64.reads]

namespace Snapshot

lemma mints_faithful : Faithful mintsToDatum mintsOfDatum? := by
  have hmap : Faithful (ofMap ofInt64) (asMap? asInt64?) := .map .int64
  constructor
  · intro m
    exact .object (by simp [hmap.plain])
  · intro m
    rw [mintsOfDatum?, mintsToDatum, slots?_object rfl]
    simp [Slots.withDefault, hmap.reads]

lemma faithful : Faithful Snapshot.toDatum Snapshot.ofDatum? where
  plain s := .object (by
    simp [Faithful.string.plain, Faithful.int64.plain, mints_faithful.plain])
  reads s := by
    rw [Snapshot.ofDatum?, Snapshot.toDatum, slots?_object rfl]
    simp [Slots.withDefault, Faithful.string.reads, Faithful.int64.reads, mints_faithful.reads]

/-- A field's name as the feed has it, which calls the time of a snapshot otherwise than
it is written. -/
def feedName (name : String) : String :=
  if name = "timestamp" then "timeStamp" else name

/-- A record under the feed's names. -/
def feedNames : Datum → Datum
  | .record fields => .record (fields.map fun f => (f.1.map feedName, f.2))
  | d => d

/-- Both names of the time belong to one slot. -/
lemma slotIndex?_feedName (name : String) :
    slotIndex? fieldNames (feedName name) = slotIndex? fieldNames name := by
  rw [feedName]
  split
  · next h =>
      subst h
      rfl
  · rfl

lemma fillSlots?_feedNames (slots : List (Option Datum)) (fields : List (Option String × Datum)) :
    fillSlots? fieldNames slots (fields.map fun f => (f.1.map feedName, f.2))
      = fillSlots? fieldNames slots fields := by
  induction fields generalizing slots with
  | nil => rfl
  | cons f fields ih =>
      obtain ⟨_ | name, d⟩ := f
      · rfl
      · rw [List.map_cons, Option.map_some, fillSlots?, fillSlots?, slotIndex?_feedName]
        simp only [ih]

/-- **Either name of the time** will do: what is read is the same. -/
theorem ofDatum?_feedNames (d : Datum) : ofDatum? (feedNames d) = ofDatum? d := by
  cases d with
  | record fields => simp only [feedNames, ofDatum?, slots?, fillSlots?_feedNames]
  | _ => rfl

/-- Other names are as plain. -/
lemma plain_feedNames {d : Datum} (hd : d.Plain) : (feedNames d).Plain := by
  cases hd with
  | @object fields hfields =>
      have hnames : feedNames (.object fields)
          = .object (fields.map fun f => (feedName f.1, f.2)) := by
        simp [feedNames, object]
      rw [hnames]
      refine .object fun f hf => ?_
      obtain ⟨g, hg, rfl⟩ := List.mem_map.1 hf
      exact hfields g hg
  | null => exact .null
  | bool b => exact .bool b
  | int n => exact .int n
  | text s => exact .text s
  | list hitems => exact .list hitems

/-- **A snapshot under the feed's names** comes back from its JSON text. -/
theorem read?_feedNames (s : Snapshot) :
    (Json.read? (Json.write (feedNames s.toDatum))).bind ofDatum? = some s := by
  rw [Json.read?_write (plain_feedNames (faithful.plain s)), Option.bind_some,
    ofDatum?_feedNames, faithful.reads]

end Snapshot

end Mintage
