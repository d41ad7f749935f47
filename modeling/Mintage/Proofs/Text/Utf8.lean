import Mathlib.Data.String.Basic
import Mathlib.Tactic.Lemma
import Mathlib.Tactic.SplitIfs
import Mintage.Text.Utf8

/-!
The bytes of texts: how many they are, and their order.

* `utf8_eq_flatMap`: the bytes of a text are those of its characters, one after the other.
* `utf8ByteSize_eq_length`: a text of one-byte characters has as many bytes as characters.
* `utf8EncodeChar_append_lt`: of two characters the lesser one has the lesser bytes.
* `utf8_lt_iff`: so has the lesser one of two texts.
-/

namespace Mintage.Text

/-- What capitals are. -/
lemma isUpper_iff (c : Char) : c.isUpper = true ↔ 'A' ≤ c ∧ c ≤ 'Z' := decide_eq_true_iff

/-- The bytes of a text are those of its characters, one after the other. -/
lemma utf8_eq_flatMap (s : String) : utf8 s = s.toList.flatMap String.utf8EncodeChar := by
  rw [utf8, ← String.utf8Encode_toList, List.utf8Encode, List.data_toByteArray]

/-- Characters of one byte each are as many as their bytes. -/
lemma utf8Len_eq_length {s : List Char} (h : ∀ c ∈ s, c.val ≤ 127) :
    String.utf8Len s = s.length := by
  induction s with
  | nil => rfl
  | cons c s ih =>
      rw [String.utf8Len_cons, Char.utf8Size_eq_one_iff.2 (h c (List.mem_cons_self ..)),
        ih fun d hd => h d (List.mem_cons_of_mem c hd), List.length_cons]

/-- A text of one-byte characters has as many bytes as characters. -/
lemma utf8ByteSize_eq_length {s : String} (h : ∀ c ∈ s.toList, c.val ≤ 127) :
    s.utf8ByteSize = s.toList.length := by
  rw [← utf8Len_eq_length h, ← String.utf8ByteSize_ofList, String.ofList_toList]

/-- The bytes of a lesser character are less, whatever follows them. -/
lemma utf8EncodeChar_append_lt {c d : Char} (h : c < d) (r t : Bytes) :
    String.utf8EncodeChar c ++ r < String.utf8EncodeChar d ++ t := by
  have hcd : c.val.toNat < d.val.toNat := h
  have hd : d.val.toNat < 1114112 := d.valid.elim (Nat.lt_trans · (by decide)) And.right
  rw [String.utf8EncodeChar, String.utf8EncodeChar]
  generalize c.val.toNat = m at hcd
  generalize d.val.toNat = n at hcd hd
  have hbyte (k j i : ℕ) (hk : k % j + i < 256) : (k % j + i) % 2 ^ 8 = k % j + i :=
    Nat.mod_eq_of_lt hk
  -- the first byte tells how many follow, and each of these adds six bits
  simp only [← Nat.div_div_eq_div_mul m 64 64, ← Nat.div_div_eq_div_mul m 64 4096]
  split_ifs <;>
    simp (disch := omega) only [List.cons_append, List.nil_append, List.cons_lt_cons_iff,
      UInt8.lt_iff_toNat_lt, ← UInt8.toNat_inj, UInt8.toNat_ofNat', hbyte] <;>
    omega

/-- A lesser text has the lesser bytes. -/
lemma utf8_lt_of_lt {s t : String} (h : s < t) : utf8 s < utf8 t := by
  rw [String.lt_iff_toList_lt] at h
  rw [utf8_eq_flatMap, utf8_eq_flatMap]
  generalize s.toList = l at h
  generalize t.toList = r at h
  induction h with
  | @nil d r =>
      obtain ⟨b, bs, hb⟩ := List.exists_cons_of_ne_nil (String.utf8EncodeChar_ne_nil (c := d))
      rw [List.flatMap_nil, List.flatMap_cons, hb]
      exact List.nil_lt_cons ..
  | rel hcd => exact utf8EncodeChar_append_lt hcd _ _
  | cons _ ih => exact List.append_left_lt ih

/-- **Texts come in the order of their bytes.** -/
theorem utf8_lt_iff {s t : String} : utf8 s < utf8 t ↔ s < t := by
  refine ⟨fun h => ?_, utf8_lt_of_lt⟩
  rcases lt_trichotomy s t with hst | rfl | hts
  · exact hst
  · exact absurd h (List.lt_irrefl _)
  · exact absurd (utf8_lt_of_lt hts) (List.lt_asymm h)

end Mintage.Text
