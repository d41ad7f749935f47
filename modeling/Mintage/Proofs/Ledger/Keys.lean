import Mathlib.Tactic.Lemma
import Mintage.Ledger.Basic
import Mintage.Proofs.Text.Digits

/-!
The texts that entries are stored under. No two keys share a text, and how a text begins
tells which kind of entry it belongs to.

* `text_injective`: an entry is found under its own key only.
* `recordStart_prefix_iff`, `moduleStart_prefix_iff`, `balanceStart_prefix_iff`: the
  texts with a given beginning are those of the records, of the module balances and of
  the account balances.
* `lt_of_recordText_lt`: the records come in the order of their heights.
-/

namespace Mintage.Key

/-- How the keys of all module balances begin. -/
def moduleStart : String := "module:"

/-- How the keys of all account balances begin. -/
def balanceStart : String := "balance:"

/-- **No two keys share a text.** -/
theorem text_injective : Function.Injective text := fun a b h => by
  have hchars := congrArg String.toList h
  cases a <;> cases b <;> simp [text, recordStart] at h hchars ⊢
  case account.account => exact h
  case balance.balance => exact h
  case moduleBalance.moduleBalance => exact h
  case mintRecord.mintRecord => exact UInt64.toNat_inj.1 (Text.paddedDigits_injective 20 hchars)

/-- The texts that begin like records are those of records. -/
lemma recordStart_prefix_iff {k : Key} :
    recordStart.toList <+: k.text.toList ↔ ∃ h, k = mintRecord h := by
  cases k <;> simp [text, recordStart]

/-- **The texts of records** come in the order of their heights. -/
theorem lt_of_recordText_lt {h k : UInt64} (hlt : (mintRecord h).text < (mintRecord k).text) :
    h < k := by
  have hfits (n : UInt64) : n.toNat < 10 ^ 20 := Nat.lt_trans n.toNat_lt (by decide)
  rw [String.lt_iff, text, text, String.toList_append, String.toList_append, String.toList_ofList,
    String.toList_ofList] at hlt
  refine UInt64.lt_iff_toNat_lt.2 (Text.lt_of_paddedDigits_lt (hfits h) (hfits k) ?_)
  -- after the same beginning it is the rest that decides
  exact List.not_le.1 fun hle => List.not_lt.2 (List.append_left_le hle) hlt

/-- The texts that begin like module balances are those of module balances. -/
lemma moduleStart_prefix_iff {k : Key} :
    moduleStart.toList <+: k.text.toList ↔ ∃ m, k = moduleBalance m := by
  cases k <;> simp [text, recordStart, moduleStart]

/-- The texts that begin like account balances are those of account balances. -/
lemma balanceStart_prefix_iff {k : Key} :
    balanceStart.toList <+: k.text.toList ↔ ∃ a, k = balance a := by
  cases k <;> simp [text, recordStart, balanceStart]

end Mintage.Key
