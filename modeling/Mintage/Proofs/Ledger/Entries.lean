import Mintage.Proofs.Ledger.Keys
import Mintage.Proofs.Ledger.Packing

/-!
What stored entries read back as.

* `load?_store_self`, `load?_store_ne`: an entry reads back as the value that was
  stored, and storing it changes no other entry.
* `Frames`: what a change leaves alone. Writes leave alone what stands under other keys
  (`frames_apply`).
* `WellFormed`: every entry is the packed form of a value of its kind. The empty ledger
  is well-formed (`wellFormed_empty`) and storing a fitting value keeps it so
  (`WellFormed.store`).
* `WellFormed.loadCoins_ok`, `WellFormed.account?_ok`, `WellFormed.mintRecord?_ok`: in a
  well-formed ledger no entry is unreadable.
-/

namespace Mintage

open Packed

namespace Ledger

/-! ### Reading over writing -/

lemma bytes?_store_self (L : Ledger) (w : Write) : (L.store w).bytes? w.key = some w.value := by
  simp [bytes?, store]

lemma bytes?_store_ne (L : Ledger) {w : Write} {k : Key} (h : w.key ≠ k) :
    (L.store w).bytes? k = L.bytes? k := by
  rw [bytes?, store, OrderedMap.get?_insert_ne _ _ (fun ht => h (Key.text_injective ht)), bytes?]

@[simp] lemma apply_nil (L : Ledger) : L.apply [] = L := rfl

@[simp] lemma apply_cons (L : Ledger) (w : Write) (ws : List Write) :
    L.apply (w :: ws) = (L.store w).apply ws := rfl

/-- Writes under other keys leave an entry as it is. -/
lemma bytes?_apply_of_ne (L : Ledger) {ws : List Write} {k : Key} (h : ∀ w ∈ ws, w.key ≠ k) :
    (L.apply ws).bytes? k = L.bytes? k := by
  induction ws generalizing L with
  | nil => rfl
  | cons w ws ih =>
      rw [apply_cons, ih _ fun v hv => h v (List.mem_cons_of_mem _ hv)]
      exact bytes?_store_ne L (h w (List.mem_cons_self ..))

/-- Two ledgers hold the same under a key. -/
def SameEntry (k : Key) (L M : Ledger) : Prop := M.bytes? k = L.bytes? k

/-- Two ledgers hold the same under every key outside a list. -/
def Frames (L M : Ledger) (keys : List Key) : Prop :=
  ∀ k, k ∉ keys → SameEntry k L M

lemma Frames.refl (L : Ledger) (keys : List Key) : L.Frames L keys := fun _ _ => rfl

lemma Frames.trans {L M N : Ledger} {keys more : List Key} (h : L.Frames M keys)
    (h' : M.Frames N more) : L.Frames N (keys ++ more) := by
  intro k hk
  simp only [List.mem_append, not_or] at hk
  exact (h' k hk.2).trans (h k hk.1)

lemma Frames.mono {L M : Ledger} {keys more : List Key} (h : L.Frames M keys)
    (hsub : keys ⊆ more) : L.Frames M more :=
  fun k hk => h k fun hk' => hk (hsub hk')

/-- A write changes nothing but what stands under its key. -/
lemma frames_store (L : Ledger) (w : Write) : L.Frames (L.store w) [w.key] :=
  fun _ hk => bytes?_store_ne L fun h => hk (h ▸ List.mem_singleton_self _)

/-- Writes change nothing but what stands under their keys. -/
lemma frames_apply (L : Ledger) {ws : List Write} {keys : List Key}
    (h : ∀ w ∈ ws, w.key ∈ keys) : L.Frames (L.apply ws) keys := by
  intro k hk
  refine bytes?_apply_of_ne L fun w hw hkey => hk ?_
  rw [← hkey]
  exact h w hw

lemma frames_reserveNumber (L : Ledger) : L.Frames (L.apply L.reserveNumber) [.accountCounter] :=
  L.frames_apply (by simp [reserveNumber])

section Load

variable {α : Type} [Packed α]

lemma load?_of_sameEntry {L M : Ledger} {k : Key} (h : SameEntry k L M) :
    M.load? α k = L.load? α k := by
  rw [load?, h, load?]

lemma load?_store_ne (L : Ledger) {w : Write} {k : Key} (h : w.key ≠ k) :
    (L.store w).load? α k = L.load? α k := by
  rw [load?, bytes?_store_ne L h, load?]

lemma loadCoins_store_ne (L : Ledger) {w : Write} {k : Key} (h : w.key ≠ k) :
    (L.store w).loadCoins k = L.loadCoins k := by
  rw [loadCoins, load?_store_ne L h, loadCoins]

variable [LawfulPacked α]

/-- The packed form of a value, found under a key, reads as that value. -/
lemma load?_of_bytes? {L : Ledger} {k : Key} {a : α} (h : L.bytes? k = some (pack a)) :
    L.load? α k = .ok (some a) := by
  rw [load?, h]
  simp only [unpack?_pack]

/-- **A stored value reads back.** -/
theorem load?_store_self (L : Ledger) (k : Key) (a : α) :
    (L.store (.put k a)).load? α k = .ok (some a) :=
  load?_of_bytes? (bytes?_store_self L (.put k a))

/-- Where every entry under a key is a packed value, the key reads without an error. -/
lemma load?_ok {L : Ledger} {k : Key} (h : ∀ b, L.bytes? k = some b → ∃ a : α, b = pack a) :
    ∃ a, L.load? α k = .ok a := by
  cases hb : L.bytes? k with
  | none => exact ⟨none, by rw [load?, hb]⟩
  | some b =>
      obtain ⟨a, rfl⟩ := h b hb
      exact ⟨some a, load?_of_bytes? hb⟩

end Load

lemma loadCoins_store_self (L : Ledger) (k : Key) (c : Coins) :
    (L.store (.put k c)).loadCoins k = .ok c := by
  rw [loadCoins, load?_store_self]
  rfl

/-- Coins are read from what is stored, and no entry means no coins. -/
lemma loadCoins_eq_ok_iff {L : Ledger} {k : Key} {c : Coins} :
    L.loadCoins k = .ok c ↔ ∃ o, L.load? Coins k = .ok o ∧ o.getD .zero = c := by
  rw [loadCoins]
  cases L.load? Coins k with
  | error e => exact ⟨nofun, fun ⟨_, h, _⟩ => nomatch h⟩
  | ok o =>
      exact ⟨fun h => ⟨o, rfl, Except.ok.inj h⟩, fun ⟨_, h, hc⟩ => by cases h; exact congrArg _ hc⟩

/-- A counter reads back from its eight bytes. -/
lemma counterOf_ofNatBE (n : UInt64) : counterOf (some (Bytes.ofNatBE 8 n.toNat)) = n := by
  have hfit : n.toNat < Nat.pow 256 8 := UInt64.toNat_lt_size n
  simp [counterOf, Bytes.ofNatBE, Bytes.toNatBE, Bytes.toNatLE_ofNatLE hfit]

/-- The account counter moves on by one when a number is reserved. -/
lemma accountCounter_reserveNumber (L : Ledger) :
    (L.apply L.reserveNumber).accountCounter = Word.next L.accountCounter := by
  have hread : (L.apply L.reserveNumber).bytes? .accountCounter
      = some (Bytes.ofNatBE 8 (Word.next L.accountCounter).toNat) :=
    bytes?_store_self L ⟨.accountCounter, _⟩
  rw [accountCounter, hread, counterOf_ofNatBE]

end Ledger

/-! ### Well-formed ledgers -/

/-- Whether bytes are what an entry of a key's kind holds. -/
def Key.Holds (b : Bytes) : Key → Prop
  | minter => ∃ m : Minter, b = pack m
  | params => ∃ p : Params, b = pack p
  | supply => ∃ c : Coins, b = pack c
  | accountCounter => ∃ n : UInt64, b = Bytes.ofNatBE 8 n.toNat
  | lastBlock => ∃ p : UInt64 × Int64, b = pack p
  | account _ => ∃ a : Account, b = pack a
  | balance _ => ∃ c : Coins, b = pack c
  | moduleBalance _ => ∃ c : Coins, b = pack c
  | mintRecord _ => ∃ r : MintRecord, b = pack r

/-- The entry holds a value of its key's kind. -/
def Write.Fits (w : Write) : Prop := w.key.Holds w.value

namespace Ledger

/-- Every entry stands under a key's text and holds a value of that key's kind. -/
structure WellFormed (L : Ledger) : Prop where
  entry : ∀ e ∈ L.entries.toList, ∃ k : Key, e.1 = k.text ∧ k.Holds e.2

lemma wellFormed_empty : empty.WellFormed := ⟨nofun⟩

namespace WellFormed

variable {L : Ledger}

lemma store (hL : L.WellFormed) {w : Write} (hw : w.Fits) : (L.store w).WellFormed := by
  refine ⟨fun e he => ?_⟩
  rcases OrderedMap.mem_insertEntry he with rfl | he
  · exact ⟨w.key, rfl, hw⟩
  · exact hL.entry e he

/-- What is found under a key is of the key's kind. -/
lemma holds (hL : L.WellFormed) {k : Key} {b : Bytes} (h : L.bytes? k = some b) : k.Holds b := by
  obtain ⟨j, hj, hb⟩ := hL.entry (k.text, b) (OrderedMap.mem_toList_iff.2 h)
  obtain rfl := Key.text_injective hj
  exact hb

/-- Every entry that holds coins reads. -/
lemma loadCoins_ok (hL : L.WellFormed) {k : Key} (hk : ∀ b, k.Holds b → ∃ c : Coins, b = pack c) :
    ∃ c, L.loadCoins k = .ok c := by
  obtain ⟨o, ho⟩ : ∃ o, L.load? Coins k = .ok o := load?_ok fun b hb => hk b (hL.holds hb)
  exact ⟨o.getD .zero, loadCoins_eq_ok_iff.2 ⟨o, ho, rfl⟩⟩

lemma supply_ok (hL : L.WellFormed) : ∃ c, L.supply = .ok c := hL.loadCoins_ok fun _ => id

lemma balance_ok (hL : L.WellFormed) (a : Address) : ∃ c, L.balance a = .ok c :=
  hL.loadCoins_ok fun _ => id

lemma account?_ok (hL : L.WellFormed) (a : Address) : ∃ o, L.account? a = .ok o :=
  load?_ok fun _ => hL.holds

lemma mintRecord?_ok (hL : L.WellFormed) (h : UInt64) : ∃ o, L.mintRecord? h = .ok o :=
  load?_ok fun _ => hL.holds

end WellFormed

end Ledger

end Mintage
