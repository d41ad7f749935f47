import Mintage.Proofs.Block.Lifecycle

/-!
The numbers of accounts. A number is taken in one write and the account that it is for is
stored in another one, later, which can fail; what is taken is never given back.

* `Ledger.Numbered`: what holds of a ledger once a number of numbers are taken. The
  counter says how many, and each account has one of them to itself.
* `Ledger.Moves.numbered`: whatever a step does to the accounts and to the counter, a
  ledger stays numbered.
* `Chain.account_numbers_unique`: over every run from an empty ledger.
-/

namespace Mintage

open StoreM Ledger

/-- A ledger once `n` account numbers are taken. The counter says how many, as far as its
64 bits go; as long as they suffice, every account has a number below the counter, and no
two accounts have the same. -/
structure Ledger.Numbered (L : Ledger) (n : Nat) : Prop where
  counter : L.accountCounter.toNat = min n (UInt64.size - 1)
  below : n < UInt64.size → ∀ a x, L.account? a = .ok (some x) →
    x.base.accountNumber < L.accountCounter
  distinct : n < UInt64.size → ∀ a b x y, L.account? a = .ok (some x) →
    L.account? b = .ok (some y) → x.base.accountNumber = y.base.accountNumber →
    a.encoded = b.encoded

namespace Ledger

variable {L M : Ledger} {moved : Option (String × Transition)} {taken : Bool}

/-- The counter moves on by one where a number is taken, as long as it can. -/
lemma Moves.counter_eq (h : L.Moves M moved taken) :
    M.accountCounter.toNat = min (L.accountCounter.toNat + taken.toNat) (UInt64.size - 1) := by
  have hcounter : M.accountCounter
      = if taken then Word.next L.accountCounter else L.accountCounter := by
    cases h <;> assumption
  have hlt : L.accountCounter.toNat < UInt64.size := UInt64.toNat_lt_size _
  rw [hcounter]
  cases taken with
  | true => exact Word.toNat_next _
  | false =>
      simp only [Bool.false_eq_true, if_false, Bool.toNat_false]
      omega

/-- Where an account comes from: it has been there with its number, or it is the one
that has just been made, with the number that was next. -/
lemma Moves.origin (h : L.Moves M moved taken) {a : Address} {x : Account}
    (hx : M.account? a = .ok (some x)) :
    (∃ y, L.account? a = .ok (some y) ∧ y.base.accountNumber = x.base.accountNumber) ∨
      (taken = true ∧ x.base.accountNumber = L.accountCounter ∧
        ∃ transition, moved = some (a.encoded, transition)) := by
  cases h with
  | untouched haccounts _ => exact .inl ⟨x, (load?_of_sameEntry (haccounts _)).symm.trans hx, rfl⟩
  | @stepped address existing next _ hbefore hafter hstep _ hothers hnumber _ =>
      by_cases ha : a.encoded = address.encoded
      · rw [account?, ← ha] at hbefore hafter
        obtain rfl : next.account = x := Option.some.inj (Except.ok.inj (hafter.symm.trans hx))
        cases existing with
        | none => exact .inr ⟨(hnumber rfl).1, (hnumber rfl).2, next.transition, by rw [ha]⟩
        | some y => exact .inl ⟨y, hbefore, by rw [hstep.becomes.base]⟩
      · exact .inl ⟨x, (load?_of_sameEntry (hothers _ ha)).symm.trans hx, rfl⟩

/-- **A ledger stays numbered**, with one number more where one is taken. -/
theorem Moves.numbered (h : L.Moves M moved taken) {n : Nat} (hL : L.Numbered n) :
    M.Numbered (n + taken.toNat) := by
  have hcounter := h.counter_eq
  rw [hL.counter] at hcounter
  have hbool : taken.toNat ≤ 1 := Bool.toNat_le taken
  refine ⟨by omega, fun hfew a x hx => ?_, fun hfew a b x y hx hy hsame => ?_⟩
  · rw [UInt64.lt_iff_toNat_lt, hcounter]
    rcases h.origin hx with ⟨y, hy, hnumber⟩ | ⟨rfl, hnumber, -⟩
    · have hbelow := UInt64.lt_iff_toNat_lt.1 (hL.below (by omega) a y hy)
      rw [hnumber, hL.counter] at hbelow
      omega
    · rw [Bool.toNat_true] at *
      rw [hnumber, hL.counter]
      omega
  · -- a number that was taken before is below the one that is taken now
    have hold {c : Address} {z w : Account} (hz : L.account? c = .ok (some z))
        (heq : z.base.accountNumber = w.base.accountNumber) :
        w.base.accountNumber ≠ L.accountCounter := by
      intro hnew
      have hbelow := UInt64.lt_iff_toNat_lt.1 (hL.below (by omega) c z hz)
      rw [heq, hnew] at hbelow
      exact Nat.lt_irrefl _ hbelow
    rcases h.origin hx with ⟨x', hx', hxn⟩ | ⟨-, hxn, s, hs⟩ <;>
      rcases h.origin hy with ⟨y', hy', hyn⟩ | ⟨-, hyn, t, ht⟩
    · exact hL.distinct (by omega) a b x' y' hx' hy' (hxn.trans (hsame.trans hyn.symm))
    · exact absurd (hsame.trans hyn) (hold hx' hxn)
    · exact absurd (hsame.symm.trans hxn) (hold hy' hyn)
    · exact (Prod.mk.inj (Option.some.inj (hs.symm.trans ht))).1

lemma empty_numbered : empty.Numbered 0 := ⟨rfl, fun _ _ _ => nofun, fun _ _ _ _ _ => nofun⟩

end Ledger

/-! ### Runs -/

/-- What can happen to a chain, and the taking of an account number on its own. -/
inductive NumberStep where
  | chain (e : ChainStep)
  | takeNumber (o : Outages)

namespace Chain

/-- The chain after a step, whether it succeeds or not. -/
def numberStep (c : Chain) : NumberStep → Chain
  | .chain e => c.step e
  | .takeNumber o => (c.run o (StoreM.nextAccountNumber MintError.store)).2

/-- Whether a step takes an account number: a block for a new account, or a call for one
that is in order. -/
def takesOne : Chain × NumberStep → Bool
  | (c, .chain e) => stepTakesNumber (c, e)
  | (_, .takeNumber o) => (o .nextAccountNumber).isNone

/-- How many account numbers the steps of a run take. -/
def numbersTaken (c : Chain) (run : List NumberStep) : Nat :=
  (history numberStep c run).countP takesOne

/-- A step keeps a ledger numbered. -/
lemma numberStep_numbered (c : Chain) (e : NumberStep) {n : Nat} (hc : c.ledger.Numbered n) :
    (c.numberStep e).ledger.Numbered (n + (takesOne (c, e)).toNat) := by
  cases e with
  | chain e => exact (c.step_moves e).numbered hc
  | takeNumber o =>
      have hmoves := c.ledger.reserveNumber_moves (o .nextAccountNumber).isNone
      rw [← nextAccountNumber_ledger MintError.store] at hmoves
      exact hmoves.numbered hc

/-- A run keeps a ledger numbered, with the numbers that its steps take. -/
lemma runAll_numbered (addressPrefix : String) (run : List NumberStep) :
    (runAll numberStep (.new addressPrefix) run).ledger.Numbered
      (numbersTaken (.new addressPrefix) run) := by
  refine history_induction (I := fun past (d : Chain) => d.ledger.Numbered (past.countP takesOne))
    (fun past d e _ hd => ?_) empty_numbered
  have hnext := d.numberStep_numbered e hd
  rw [List.countP_append, List.countP_singleton]
  cases htakes : takesOne (d, e) <;> rw [htakes] at hnext <;> exact hnext

/-- **Account numbers are unique.** Over every run that starts with an empty ledger, of
blocks, snapshots, restarts and the taking of numbers on their own, whichever calls fail:
as long as fewer than 2⁶⁴ numbers are taken, the counter says how many they are, every
account has a number below it, and accounts under different addresses have different
numbers. -/
theorem account_numbers_unique (addressPrefix : String) (run : List NumberStep)
    (hfew : numbersTaken (.new addressPrefix) run < 2 ^ 64) :
    (runAll numberStep (.new addressPrefix) run).ledger.accountCounter.toNat
      = numbersTaken (.new addressPrefix) run ∧
    (∀ a x, (runAll numberStep (.new addressPrefix) run).ledger.account? a = .ok (some x) →
      x.base.accountNumber < (runAll numberStep (.new addressPrefix) run).ledger.accountCounter) ∧
    ∀ a b x y, (runAll numberStep (.new addressPrefix) run).ledger.account? a = .ok (some x) →
      (runAll numberStep (.new addressPrefix) run).ledger.account? b = .ok (some y) →
      a.encoded ≠ b.encoded → x.base.accountNumber ≠ y.base.accountNumber := by
  have hnumbered := runAll_numbered addressPrefix run
  have hcounter := hnumbered.counter
  have hsize : UInt64.size = 2 ^ 64 := rfl
  refine ⟨by omega, hnumbered.below hfew, fun a b x y hx hy hne hsame => hne ?_⟩
  exact hnumbered.distinct hfew a b x y hx hy hsame

/-- A new chain takes a number on its own, and then one for the recipient of its first
mint. -/
def numberedSteps : List NumberStep :=
  [.chain (.ensureGenesis .none .default), .takeNumber .none, .chain (.merge (sampleFeed 100)),
    .chain (.beginBlock sampleSettings .none firstBlock)]

/-- Two numbers are taken, and the recipient has the second of them. -/
theorem account_numbers_unique_first :
    numbersTaken (.new "unigrid") numberedSteps < 2 ^ 64 ∧
    (runAll numberStep (.new "unigrid") numberedSteps).ledger.account? sampleAddress
      = .ok (some (.delayed (.new sampleAddress 1) .zero 315360000)) ∧
    1 < (runAll numberStep (.new "unigrid") numberedSteps).ledger.accountCounter := by
  have hfew : numbersTaken (.new "unigrid") numberedSteps < 2 ^ 64 :=
    Nat.lt_of_le_of_lt List.countP_le_length (by decide +kernel)
  have hmade : (runAll numberStep (.new "unigrid") numberedSteps).ledger.account? sampleAddress
      = .ok (some (.delayed (.new sampleAddress 1) .zero 315360000)) := by
    decide +kernel
  exact ⟨hfew, hmade, (account_numbers_unique "unigrid" numberedSteps hfew).2.1 _ _ hmade⟩

end Chain

end Mintage
