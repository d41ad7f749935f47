import Mintage.Proofs.Ledger.Bank

/-!
Ledgers whose supply counts what is held, and when the bank refuses new coins there.

* `Conserves.sound`: a change whose new coins are counted and held keeps a ledger sound.
* `amounts_le_holdings`, `amounts_add_le_holdings`: no holder, and no two holders, have more
  than all have together, which in a sound ledger is the supply.
* `Sound.issueWrites_ok`, `Sound.issueWrites_error`: new coins are refused exactly where the
  supply cannot take them; the balance of the one who gets them never decides it.
* `Sound.paymentWrites_ok`, `Sound.paymentWrites_error`: a payment is refused exactly where
  the sender does not hold the coins; the balance of the recipient never decides it.
-/

namespace Mintage.Ledger

/-- New coins, if there are any, are counted by the supply and held by someone. -/
def Conserves (L M : Ledger) : Prop := ∃ made, L.Makes M made

namespace Conserves

variable {L M N : Ledger}

lemma refl (L : Ledger) : L.Conserves L := ⟨_, .refl L⟩

lemma trans (h : L.Conserves M) (h' : M.Conserves N) : L.Conserves N := by
  obtain ⟨made, h⟩ := h
  obtain ⟨more, h'⟩ := h'
  exact ⟨_, h.trans h'⟩

end Conserves

/-- An entry that holds no coins can be stored. -/
lemma store_conserves (L : Ledger) {w : Write} (hfit : w.Fits) (hw : ¬ w.key.HoldsCoins) :
    L.Conserves (L.store w) :=
  ⟨_, store_makes L hfit hw⟩

/-- A ledger whose entries all read, and whose supply counts what is held. -/
structure Sound (L : Ledger) : Prop where
  wellFormed : L.WellFormed
  balanced : ∀ denom, L.supplyTotal denom = L.holdings denom

lemma sound_empty : empty.Sound := ⟨wellFormed_empty, fun _ => rfl⟩

/-- **A change that conserves coins** keeps a ledger sound. -/
theorem Conserves.sound {L M : Ledger} (h : L.Conserves M) (hL : L.Sound) : M.Sound := by
  obtain ⟨made, h⟩ := h
  exact ⟨h.wellFormed hL.wellFormed, h.balanced hL.balanced⟩

/-! ### Balances and the supply -/

/-- No holder has more than all have together. -/
lemma amounts_le_holdings {L : Ledger} {k : Key} (hk : k.IsBalance) {held : Coins}
    (h : L.loadCoins k = .ok held) (d : String) : held.amounts d ≤ L.holdings d := by
  -- once this holder's coins are taken away, the others still hold something or nothing
  have hstored := holdings_store_balance hk h .zero d
  have hzero : Coins.zero.amounts d = 0 := rfl
  omega

/-- No two holders have more than all have together. -/
lemma amounts_add_le_holdings {L : Ledger} {j k : Key} (hj : j.IsBalance) (hk : k.IsBalance)
    (hne : j ≠ k) {had held : Coins} (hhad : L.loadCoins j = .ok had)
    (hheld : L.loadCoins k = .ok held) (d : String) :
    had.amounts d + held.amounts d ≤ L.holdings d := by
  have hstored := holdings_store_balance hj hhad .zero d
  have hother : (L.store (.put j Coins.zero)).loadCoins k = .ok held :=
    (loadCoins_store_ne L hne).trans hheld
  have hle := amounts_le_holdings hk hother d
  have hzero : Coins.zero.amounts d = 0 := rfl
  omega

/-! ### What the bank refuses -/

namespace Sound

variable {L : Ledger} (hL : L.Sound) {k : Key} (hk : k.IsBalance) {coins : Coins}
  (writes : Coins → Coins → List Write)

include hL

/-- Nobody holds more than the supply. -/
lemma balance_le_supply (hk : k.IsBalance) {held : Coins} (h : L.loadCoins k = .ok held)
    (denom : String) : held.amounts denom ≤ L.supplyTotal denom := by
  rw [hL.balanced]
  exact amounts_le_holdings hk h denom

/-- Every balance reads. -/
lemma loadCoins_isBalance (hk : k.IsBalance) : ∃ held, L.loadCoins k = .ok held := by
  refine hL.wellFormed.loadCoins_ok fun b hb => ?_
  cases k <;> first | exact hb | exact hk.elim

include hk

/-- **New coins can be given to a holder** where the supply can take them: the holder has
no more than the supply. -/
theorem issueWrites_ok (h : ∀ denom, L.supplyTotal denom + coins.amounts denom < UInt64.size) :
    ∃ ws, L.issueWrites k coins writes = .ok ws := by
  obtain ⟨held, hheld⟩ := hL.loadCoins_isBalance hk
  obtain ⟨counted, hcounted⟩ := hL.wellFormed.supply_ok
  obtain ⟨has, hhas⟩ := credit_isOk held coins fun d => by
    have := hL.balance_le_supply hk hheld d
    have := h d
    omega
  obtain ⟨counts, hcounts⟩ := credit_isOk counted coins fun d => by
    have := h d
    rwa [supplyTotal_of_supply hcounted] at this
  rw [issueWrites, Except.bind_of_ok _ hheld, Except.bind_of_ok _ hhas,
    Except.bind_of_ok _ hcounted, Except.bind_of_ok _ hcounts]
  exact ⟨_, rfl⟩

/-- **New coins are refused** where the supply cannot take them. -/
theorem issueWrites_error {denom : String}
    (h : UInt64.size ≤ L.supplyTotal denom + coins.amounts denom) :
    ∃ detail, L.issueWrites k coins writes = .error (.overflow detail) := by
  obtain ⟨held, hheld⟩ := hL.loadCoins_isBalance hk
  obtain ⟨counted, hcounted⟩ := hL.wellFormed.supply_ok
  rw [supplyTotal_of_supply hcounted] at h
  obtain ⟨detail, hrefused⟩ := credit_isError counted coins h
  rw [issueWrites, Except.bind_of_ok _ hheld]
  rcases credit_cases held coins with ⟨has, hhas⟩ | ⟨detail', hhas⟩
  · rw [Except.bind_of_ok _ hhas, Except.bind_of_ok _ hcounted, Except.bind_of_error _ hrefused]
    exact ⟨detail, rfl⟩
  · rw [Except.bind_of_error _ hhas]
    exact ⟨detail', rfl⟩

omit hk in
/-- A commit is possible where the supply can take its coins. -/
lemma commitWrites_ok (account : Account) (record : MintRecord)
    (h : ∀ denom, L.supplyTotal denom + coins.amounts denom < UInt64.size) :
    ∃ ws, L.commitWrites account coins record = .ok ws :=
  hL.issueWrites_ok (k := .balance account.address.encoded) trivial _ h

omit hk in
/-- A commit is refused where the supply cannot take its coins. -/
lemma commitWrites_error (account : Account) (record : MintRecord) {denom : String}
    (h : UInt64.size ≤ L.supplyTotal denom + coins.amounts denom) :
    ∃ detail, L.commitWrites account coins record = .error (.overflow detail) :=
  hL.issueWrites_error (k := .balance account.address.encoded) trivial _ h

variable {sender : String} (hne : k ≠ .moduleBalance sender) {had : Coins}
  (hhad : L.moduleBalance sender = .ok had)

include hne hhad

/-- **A payment is possible** where the sender holds the coins: sender and recipient
together have no more than the supply, so the recipient has room for them. -/
theorem paymentWrites_ok (h : coins.Within had) :
    ∃ ws, L.paymentWrites sender k coins writes = .ok ws := by
  obtain ⟨held, hheld⟩ := hL.loadCoins_isBalance hk
  obtain ⟨-, left, hleft⟩ := (debit_cases sender had coins).resolve_right fun hr => hr.1 h
  obtain ⟨has, hhas⟩ := credit_isOk held coins fun d => by
    have hboth := amounts_add_le_holdings (j := .moduleBalance sender) trivial hk (Ne.symm hne) hhad
      hheld d
    have hpaid : coins.amounts d ≤ had.amounts d := UInt64.le_iff_toNat_le.1 (h d)
    have hsupply := L.supplyTotal_lt d
    rw [hL.balanced] at hsupply
    omega
  rw [paymentWrites, Except.bind_of_ok _ hhad, Except.bind_of_ok _ hleft,
    Except.bind_of_ok _ hheld, Except.bind_of_ok _ hhas]
  exact ⟨_, rfl⟩

omit hL hk hne in
/-- **A payment is refused** where the sender does not hold the coins. -/
theorem paymentWrites_error (h : ¬ coins.Within had) :
    L.paymentWrites sender k coins writes
      = .error (.insufficientFunds sender coins had) := by
  obtain ⟨-, hrefused⟩ := (debit_cases sender had coins).resolve_left fun hl => h hl.1
  rw [paymentWrites, Except.bind_of_ok _ hhad, Except.bind_of_error _ hrefused]

end Sound

end Mintage.Ledger
