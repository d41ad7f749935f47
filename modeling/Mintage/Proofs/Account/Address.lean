import Mathlib.Data.Set.Function
import Mathlib.Tactic.Lemma
import Mintage.Error.State
import Mintage.Proofs.Text.Utf8

/-!
The grammar of addresses. The characters that may follow the separator do not include the
separator, so a text has one place at most where its prefix can end, and reads as an address
under one prefix at most.

* `Address.Spells`: what a text is made of that reads as an address.
* `Address.parse_eq_ok_iff`: these texts are read, and no others.
* `Address.Parsed.eq_of_encoded`: two addresses that were read from the same text are the
  same.
* `Address.read_unambiguous`: both together, and with them that a text has one prefix, and
  bytes one text under a prefix.
-/

namespace Mintage.Address

variable {text addressPrefix : String} {data rest : List Char} {a : Address}

/-! ### Splitting at the separator -/

/-- In a list that begins with its only `x`, nothing stands before an `x`. -/
lemma eq_nil_of_append_cons {α : Type} {x : α} {d e l : List α} (hd : x ∉ d)
    (h : x :: d = l ++ x :: e) : l = [] := by
  cases l with
  | nil => rfl
  | cons y l =>
      obtain ⟨-, rfl⟩ := List.cons.inj h
      exact absurd (List.mem_append_right l (List.mem_cons_self ..)) hd

/-- What follows the last `x` of a list depends on the list alone. -/
lemma rest_unique {α : Type} {x : α} {p q d e : List α} (hd : x ∉ d) (he : x ∉ e)
    (h : p ++ x :: d = q ++ x :: e) : d = e := by
  rcases List.append_eq_append_iff.1 h with ⟨l, -, hl⟩ | ⟨l, -, hl⟩
  · obtain rfl := eq_nil_of_append_cons hd hl
    exact (List.cons.inj hl).2
  · obtain rfl := eq_nil_of_append_cons he hl
    exact (List.cons.inj hl).2.symm

/-! ### The grammar -/

/-- A text spells an address: a prefix without capitals, the separator, and six or more
letters of the address alphabet, in 90 bytes at most. -/
structure Spells (text addressPrefix : String) (data : List Char) : Prop where
  short : text.utf8ByteSize ≤ 90
  parts : text.toList = addressPrefix.toList ++ '1' :: data
  enough : 6 ≤ data.length
  letters : ∀ c ∈ data, c ∈ "qpzry9x8gf2tvdw0s3jn54khce6mua7l".toList
  lower : ∀ c ∈ addressPrefix.toList, ¬('A' ≤ c ∧ c ≤ 'Z')

/-- The address that a text spells. -/
def spelled (text : String) (data : List Char) : Address :=
  ⟨text, Text.utf8 (String.ofList ('1' :: data))⟩

/-- The separator is no letter of the alphabet. -/
lemma separator_not_mem (h : ∀ c ∈ data, c ∈ alphabet) : separator ∉ data :=
  fun hmem => absurd (h _ hmem) (by decide)

/-- The letters of the alphabet have one byte each. -/
lemma byteLength_eq_length (h : ∀ c ∈ data, c ∈ alphabet) : byteLength data = data.length := by
  have hone : alphabet.all (·.val ≤ 127) = true := by decide
  have hutf8 : byteLength data = String.utf8Len data := by
    clear h
    induction data with
    | nil => rfl
    | cons c data ih => rw [String.utf8Len_cons, ← ih, Nat.add_comm]; rfl
  rw [hutf8, Text.utf8Len_eq_length fun c hc =>
    of_decide_eq_true (List.all_eq_true.1 hone c (h c hc))]

/-- What may follow the prefix: the separator and letters of the alphabet. -/
lemma checkRest_eq_ok_iff : checkRest rest = .ok () ↔
    ∃ data, rest = '1' :: data ∧ 6 ≤ data.length ∧ ∀ c ∈ data, c ∈ alphabet := by
  have hfind (data : List Char) : data.find? (fun c => !alphabet.contains c) = none ↔
      ∀ c ∈ data, c ∈ alphabet := by
    simp [List.find?_eq_none]
  constructor
  · intro h
    cases rest with
    | nil => cases h
    | cons c data =>
        rw [checkRest] at h
        split at h
        · cases h
        next hc =>
          split at h
          · cases h
          next hlength =>
            split at h
            · cases h
            next hletters =>
              have hletters := (hfind data).1 hletters
              rw [byteLength_eq_length hletters] at hlength
              exact ⟨data, by rw [Decidable.not_not.1 hc]; rfl, Nat.le_of_not_lt hlength, hletters⟩
  · rintro ⟨data, rfl, hlength, hletters⟩
    have hsep : ¬ '1' ≠ separator := not_not.2 rfl
    have hlong : ¬byteLength data < minDataLength := by
      rw [byteLength_eq_length hletters]
      exact Nat.not_lt.2 hlength
    rw [checkRest, if_neg hsep, if_neg hlong, (hfind data).2 hletters]

/-- Neither the separator nor the alphabet has capitals, so that only the prefix can bring
one in. -/
lemma any_isUpper_iff (hparts : text.toList = addressPrefix.toList ++ '1' :: data)
    (hletters : ∀ c ∈ data, c ∈ alphabet) :
    text.toList.any Char.isUpper = false ↔
      ∀ c ∈ addressPrefix.toList, ¬('A' ≤ c ∧ c ≤ 'Z') := by
  have hnone : ('1' :: alphabet).all (!·.isUpper) = true := by decide
  have hrest : ∀ c ∈ '1' :: data, c.isUpper = false := fun c hc => by
    simpa using List.all_eq_true.1 hnone c (List.cons_subset_cons '1' hletters hc)
  have hupper (c : Char) : c.isUpper = false ↔ ¬('A' ≤ c ∧ c ≤ 'Z') := by
    rw [← Text.isUpper_iff, Bool.not_eq_true]
  rw [hparts, List.any_eq_false, List.forall_mem_append]
  constructor
  · exact fun h c hc => (hupper c).1 (by simpa using h.1 c hc)
  · exact fun h => ⟨fun c hc => by simpa using (hupper c).2 (h c hc),
      fun c hc => by simpa using hrest c hc⟩

/-- **The grammar of addresses**: a text reads as an address where it spells one, and as the
one that it spells. -/
theorem parse_eq_ok_iff : parse text addressPrefix = .ok a ↔
    ∃ data, Spells text addressPrefix data ∧ a = spelled text data := by
  constructor
  · intro h
    simp only [parse] at h
    split at h
    · cases h
    next hshort =>
      split at h
      · cases h
      next hlower =>
        split at h
        · cases h
        next hprefix =>
          obtain ⟨rest, hrest⟩ := Decidable.not_not.1 hprefix
          rw [← hrest, List.drop_left] at h
          cases hcheck : checkRest rest with
          | error e => rw [hcheck] at h; cases h
          | ok u =>
              rw [hcheck] at h
              cases h
              obtain ⟨data, rfl, henough, hletters⟩ := checkRest_eq_ok_iff.1 hcheck
              have hcapitals := (any_isUpper_iff hrest.symm hletters).1 (by simpa using hlower)
              exact ⟨data, ⟨Nat.le_of_not_lt hshort, hrest.symm, henough, hletters, hcapitals⟩, rfl⟩
  · rintro ⟨data, h, rfl⟩
    have hshort : ¬maxLength < text.utf8ByteSize := Nat.not_lt.2 h.short
    have hlower : ¬text.toList.any Char.isUpper = true := by
      simpa using (any_isUpper_iff h.parts h.letters).2 h.lower
    have hprefix : ¬¬addressPrefix.toList <+: text.toList :=
      not_not.2 ⟨'1' :: data, h.parts.symm⟩
    have hcheck := checkRest_eq_ok_iff.2 ⟨data, rfl, h.enough, h.letters⟩
    simp only [parse]
    rw [if_neg hshort, if_neg hlower, if_neg hprefix, h.parts, List.drop_left, hcheck]
    rfl

/-! ### Addresses and their texts -/

/-- A text has one set of data at most, whatever its prefix is. -/
lemma Spells.data_unique {p q : String} {d e : List Char} (hp : Spells text p d)
    (hq : Spells text q e) : d = e :=
  rest_unique (separator_not_mem hp.letters) (separator_not_mem hq.letters)
    (hp.parts.symm.trans hq.parts)

/-- An address that was read from a text, under some prefix. -/
def Parsed (a : Address) : Prop := ∃ text addressPrefix, parse text addressPrefix = .ok a

/-- **A text names one address**, whatever prefixes it is read under. -/
theorem Parsed.eq_of_encoded {a b : Address} (ha : a.Parsed) (hb : b.Parsed)
    (h : a.encoded = b.encoded) : a = b := by
  obtain ⟨text, p, ha⟩ := ha
  obtain ⟨text', q, hb⟩ := hb
  obtain ⟨d, hd, rfl⟩ := parse_eq_ok_iff.1 ha
  obtain ⟨e, he, rfl⟩ := parse_eq_ok_iff.1 hb
  obtain rfl : text = text' := h
  obtain rfl := hd.data_unique he
  rfl

/-- A text has one prefix at most. -/
lemma Spells.prefix_unique {p q : String} {d e : List Char} (hp : Spells text p d)
    (hq : Spells text q e) : p = q := by
  obtain rfl := hp.data_unique hq
  exact String.toList_inj.1 (List.append_cancel_right (hp.parts.symm.trans hq.parts))

/-- Under one prefix the data tell the text. -/
lemma Spells.text_unique {s t : String} (hs : Spells s addressPrefix data)
    (ht : Spells t addressPrefix data) : s = t :=
  String.toList_inj.1 (hs.parts.trans ht.parts.symm)

/-- The bytes of an address tell its data. -/
lemma data_of_bytes {s t : String} {d e : List Char}
    (h : (spelled s d).bytes = (spelled t e).bytes) : d = e := by
  have hread := congrArg Text.ofUtf8? h
  rw [spelled, spelled, Text.ofUtf8?_utf8, Text.ofUtf8?_utf8] at hread
  exact (List.cons.inj (String.ofList_injective (Option.some.inj hread))).2

/-- An address is read where the text parses. -/
lemma read_eq_ok_iff : read text addressPrefix = .ok a ↔
    ∃ data, Spells text addressPrefix data ∧ a = spelled text data := by
  rw [← parse_eq_ok_iff, read]
  cases parse text addressPrefix <;> simp

/-- **Addresses are read by their grammar, and without ambiguity**: a text is read where it
spells an address, and as that one. It is read under one prefix at most, the text of an
address that was read tells the address, and under one prefix so do its bytes. -/
theorem read_unambiguous :
    (∀ text addressPrefix a, read text addressPrefix = .ok a ↔
      ∃ data, Spells text addressPrefix data ∧ a = spelled text data) ∧
    (∀ text, {p | ∃ a, read text p = .ok a}.Subsingleton) ∧
    Set.InjOn Address.encoded {a | ∃ text p, read text p = .ok a} ∧
    ∀ p, Set.InjOn Address.bytes {a | ∃ text, read text p = .ok a} := by
  refine ⟨fun _ _ _ => read_eq_ok_iff, ?_, ?_, ?_⟩
  · rintro text p ⟨a, ha⟩ q ⟨b, hb⟩
    obtain ⟨d, hd, -⟩ := read_eq_ok_iff.1 ha
    obtain ⟨e, he, -⟩ := read_eq_ok_iff.1 hb
    exact hd.prefix_unique he
  · rintro a ⟨s, p, ha⟩ b ⟨t, q, hb⟩ h
    have hparsed {s p : String} {a : Address} (ha : read s p = .ok a) : a.Parsed :=
      ⟨s, p, parse_eq_ok_iff.2 (read_eq_ok_iff.1 ha)⟩
    exact (hparsed ha).eq_of_encoded (hparsed hb) h
  · rintro p a ⟨s, ha⟩ b ⟨t, hb⟩ h
    obtain ⟨d, hd, rfl⟩ := read_eq_ok_iff.1 ha
    obtain ⟨e, he, rfl⟩ := read_eq_ok_iff.1 hb
    obtain rfl := data_of_bytes h
    obtain rfl := hd.text_unique he
    rfl

/-- A prefix can have the separator in it: it goes as far as the last one. -/
theorem read_unambiguous_innerSeparator :
    read "u11qqqqqq" "u1" = .ok (spelled "u11qqqqqq" "qqqqqq".toList) ∧
    (∃ data, Spells "u11qqqqqq" "u1" data) ∧ ¬ ∃ a, read "u11qqqqqq" "u" = .ok a := by
  obtain ⟨hreads, hunique, -⟩ := read_unambiguous
  have hread : read "u11qqqqqq" "u1" = .ok (spelled "u11qqqqqq" "qqqqqq".toList) := by
    decide +kernel
  obtain ⟨data, hspells, -⟩ := (hreads _ _ _).1 hread
  refine ⟨hread, ⟨data, hspells⟩, fun h => ?_⟩
  exact absurd (hunique "u11qqqqqq" h ⟨_, hread⟩) (by decide)

end Mintage.Address
