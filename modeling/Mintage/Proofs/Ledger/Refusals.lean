import Mintage.Proofs.Block.Conservation

/-!
When the bank refuses. In every ledger that operations and blocks lead to, a call on the
bank fails for one reason only, as long as the store is in order.

* `Pays`, `Sound.sendToModule_pays`, `Sound.sendToAccount_pays`: a payment is refused
  where the sender does not hold the coins, and nowhere else. The recipient always has room
  for them.
* `Issues`, `Sound.mintCoins_issues`, `Sound.commitMint_issues`: new coins are refused
  where the supply cannot take them, and nowhere else.
* `bank_answers`: all four calls, in every reachable ledger.
-/

namespace Mintage

/-- Without coins there is enough of everything. -/
lemma Coins.within_of_isEmpty {c : Coins} (h : c.isEmpty = true) (held : Coins) :
    c.Within held := fun d => by
  rw [Coins.amountOf_of_isEmpty h]
  exact UInt64.zero_le

/-- The supply can take coins: none of its denominations leaves 64 bits. -/
def Coins.Takes (supply coins : Coins) : Prop :=
  ∀ d, (supply.amountOf d).toNat + (coins.amountOf d).toNat < UInt64.size

/-- The answer to a payment. It is made exactly where the sender holds the coins, and
refused for want of them exactly where it does not. -/
structure Pays (sender : String) (held coins : Coins) (answer : Except (Stop StateError) Unit) :
    Prop where
  made : answer = .ok () ↔ coins.Within held
  refused : answer = .error (.failed (.insufficientFunds sender coins held)) ↔ ¬ coins.Within held

/-- The answer to a call that makes coins. They are made exactly where the supply can take
them, and refused as too many exactly where it cannot. -/
structure Issues (supply coins : Coins) (answer : Except (Stop StateError) Unit) : Prop where
  made : answer = .ok () ↔ supply.Takes coins
  refused : (∃ detail, answer = .error (.failed (.overflow detail))) ↔ ¬ supply.Takes coins

namespace Ledger

variable {L : Ledger} {c : StoreCall} {op : Ledger → Except StateError (List Write)}
  {call : BlockStore Ledger → Call Ledger Unit}

/-- A payment answers as its operation does. -/
lemma pays_update (hcall : ∀ o : Outages, call o.store = o.writes c op) {sender : String}
    {held coins : Coins}
    (hmade : coins.Within held → ∃ ws, op L = .ok ws)
    (hrefused : ¬ coins.Within held → op L = .error (.insufficientFunds sender coins held)) :
    Pays sender held coins ((StoreM.ask id call).runOn .none L).1 := by
  by_cases h : coins.Within held
  · obtain ⟨ws, hws⟩ := hmade h
    rw [StoreM.runOn_update_of_ok hcall rfl hws]
    exact ⟨iff_of_true rfl h, iff_of_false nofun fun hn => hn h⟩
  · rw [StoreM.runOn_update_of_error hcall rfl (hrefused h)]
    exact ⟨iff_of_false nofun h, iff_of_true rfl h⟩

/-- A call that makes coins answers as its operation does. -/
lemma issues_update (hcall : ∀ o : Outages, call o.store = o.writes c op) {supply coins : Coins}
    (hmade : supply.Takes coins → ∃ ws, op L = .ok ws)
    (hrefused : ¬ supply.Takes coins → ∃ detail, op L = .error (.overflow detail)) :
    Issues supply coins ((StoreM.ask id call).runOn .none L).1 := by
  by_cases h : supply.Takes coins
  · obtain ⟨ws, hws⟩ := hmade h
    rw [StoreM.runOn_update_of_ok hcall rfl hws]
    refine ⟨iff_of_true rfl h, iff_of_false ?_ fun hn => hn h⟩
    rintro ⟨detail, hdetail⟩
    cases hdetail
  · obtain ⟨detail, hdetail⟩ := hrefused h
    rw [StoreM.runOn_update_of_error hcall rfl hdetail]
    exact ⟨iff_of_false nofun h, iff_of_true ⟨detail, rfl⟩ h⟩

namespace Sound

variable (hL : L.Sound) {coins : Coins}

include hL

/-! ### Payments -/

section Payments

variable {sender : String} {held : Coins} (hheld : L.moduleBalance sender = .ok held)

include hheld

/-- **A payment to another module** is refused for want of funds only. -/
theorem sendToModule_pays {recipient : String} (hne : sender ≠ recipient) :
    Pays sender held coins ((StoreM.sendToModule id sender recipient coins).runOn .none L).1 := by
  have hkey : Key.moduleBalance recipient ≠ .moduleBalance sender := by
    intro h
    exact hne (Key.moduleBalance.inj h).symm
  refine pays_update (fun _ => rfl) (fun h => ?_) fun h => ?_ <;> rw [moduleTransferWrites]
  · split
    · exact ⟨[], rfl⟩
    · exact hL.paymentWrites_ok (k := .moduleBalance recipient) trivial _ hkey hheld h
  · rw [if_neg (not_or.2 ⟨fun hc => h (Coins.within_of_isEmpty hc held), hne⟩)]
    exact paymentWrites_error _ hheld h

/-- **A payment to an account** is refused for want of funds only. -/
theorem sendToAccount_pays (recipient : Address) :
    Pays sender held coins ((StoreM.sendToAccount id sender recipient coins).runOn .none L).1 := by
  have hkey : Key.balance recipient.encoded ≠ .moduleBalance sender := by
    intro h
    cases h
  refine pays_update (fun _ => rfl) (fun h => ?_) fun h => ?_ <;> rw [accountTransferWrites]
  · split
    · exact ⟨[], rfl⟩
    · exact hL.paymentWrites_ok (k := .balance recipient.encoded) trivial _ hkey hheld h
  · rw [if_neg fun hc => h (Coins.within_of_isEmpty hc held)]
    exact paymentWrites_error _ hheld h

end Payments

/-! ### New coins -/

section NewCoins

variable {supply : Coins} (hsupply : L.supply = .ok supply)

include hsupply

omit hL in
lemma takes_iff : supply.Takes coins ↔ ∀ d, L.supplyTotal d + coins.amounts d < UInt64.size :=
  forall_congr' fun d => by rw [supplyTotal_of_supply hsupply, Coins.amounts]

omit hL in
lemma not_takes_iff :
    ¬ supply.Takes coins ↔ ∃ d, UInt64.size ≤ L.supplyTotal d + coins.amounts d := by
  rw [takes_iff hsupply]
  simp only [not_forall, Nat.not_lt]

/-- **Making coins** is refused where the supply cannot take them, and nowhere else. -/
theorem mintCoins_issues (name : String) :
    Issues supply coins ((StoreM.mintCoins id name coins).runOn .none L).1 := by
  refine issues_update (fun _ => rfl) (fun h => ?_) fun h => ?_ <;> rw [mintWrites]
  · split
    · exact ⟨[], rfl⟩
    · exact hL.issueWrites_ok (k := .moduleBalance name) trivial _ ((takes_iff hsupply).1 h)
  · obtain ⟨d, hd⟩ := (not_takes_iff hsupply).1 h
    -- without coins the supply stays as it is, and that fits
    have hcoins : ¬ coins.isEmpty = true := by
      intro hc
      rw [amounts_of_isEmpty hc, Nat.add_zero] at hd
      exact absurd (L.supplyTotal_lt d) (Nat.not_lt.2 hd)
    rw [if_neg hcoins]
    exact hL.issueWrites_error (k := .moduleBalance name) trivial _ hd

/-- **Committing a mint** is refused where the supply cannot take its coins, and nowhere
else. -/
theorem commitMint_issues (account : Account) (record : MintRecord) :
    Issues supply coins ((StoreM.commitMint id account coins record).runOn .none L).1 := by
  refine issues_update (fun _ => rfl) (fun h => ?_) fun h => ?_
  · exact hL.commitWrites_ok account record ((takes_iff hsupply).1 h)
  · obtain ⟨d, hd⟩ := (not_takes_iff hsupply).1 h
    exact hL.commitWrites_error account record hd

end NewCoins

end Sound

/-- **The bank refuses for the stated reasons only.** Whatever operations and blocks lead to
a ledger, and whichever of them failed: with the store in order, a payment to another module
or to an account is made where the sender holds the coins, and otherwise refused for want of
funds; coins are made, and a mint is committed, where the supply can take them, and
otherwise refused as too many. -/
theorem bank_answers (run : List (LedgerStep × Outages)) (coins : Coins) :
    (∀ sender, ∃ held, (reached run).moduleBalance sender = .ok held ∧
      (∀ recipient, sender ≠ recipient → Pays sender held coins
        ((StoreM.sendToModule id sender recipient coins).runOn .none (reached run)).1) ∧
      ∀ recipient, Pays sender held coins
        ((StoreM.sendToAccount id sender recipient coins).runOn .none (reached run)).1) ∧
    ∃ supply, (reached run).supply = .ok supply ∧
      (∀ name, Issues supply coins
        ((StoreM.mintCoins id name coins).runOn .none (reached run)).1) ∧
      ∀ account record, Issues supply coins
        ((StoreM.commitMint id account coins record).runOn .none (reached run)).1 := by
  have hsound := reached_sound run
  constructor
  · intro sender
    obtain ⟨held, hheld⟩ := hsound.loadCoins_isBalance (k := .moduleBalance sender) trivial
    exact ⟨held, hheld, fun _ hne => hsound.sendToModule_pays hheld hne,
      hsound.sendToAccount_pays hheld⟩
  · obtain ⟨supply, hsupply⟩ := hsound.wellFormed.supply_ok
    exact ⟨supply, hsupply, hsound.mintCoins_issues hsupply, hsound.commitMint_issues hsupply⟩

/-- Ten units minted in a module cannot be sent on as eleven. -/
theorem bank_answers_overdraw :
    "ugdmint" ≠ "fees" ∧
    ((StoreM.sendToModule id "ugdmint" "fees" (.ofCoin ⟨"ugd", 11⟩)).runOn .none
        (reached [(.mintCoins "ugdmint" (.ofCoin ⟨"ugd", 10⟩), .none)])).1
      = .error (.failed (.insufficientFunds "ugdmint" (.ofCoin ⟨"ugd", 11⟩)
          (.ofCoin ⟨"ugd", 10⟩))) := by
  have hne : "ugdmint" ≠ "fees" := by decide
  obtain ⟨held, hheld, hmodules, -⟩ :=
    (bank_answers [(.mintCoins "ugdmint" (.ofCoin ⟨"ugd", 10⟩), .none)] (.ofCoin ⟨"ugd", 11⟩)).1
      "ugdmint"
  have hread : (reached [(.mintCoins "ugdmint" (.ofCoin ⟨"ugd", 10⟩), .none)]).moduleBalance
      "ugdmint" = .ok (.ofCoin ⟨"ugd", 10⟩) := by
    decide +kernel
  obtain rfl : held = .ofCoin ⟨"ugd", 10⟩ := Except.ok.inj (hheld.symm.trans hread)
  refine ⟨hne, (hmodules "fees" hne).refused.2 fun hwithin => ?_⟩
  exact absurd (hwithin "ugd") (by decide +kernel)

end Ledger

end Mintage
