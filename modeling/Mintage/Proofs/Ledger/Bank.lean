import Mintage.Ledger.Bank
import Mintage.Proofs.Ledger.Totals
import Mintage.Proofs.Money.Coins

/-!
What the operations of the bank do to the totals of a ledger.

* `Makes`: between two ledgers the supply and the balances have grown by the same new
  coins.
* `Issued.makes`, `Paid.makes`: giving coins to a holder and counting them makes these
  coins; taking them from a module and giving them to another holder makes none.
* `mintWrites_makes`, `commitWrites_makes`: making coins and committing a scheduled mint
  make just these coins.
* `moduleTransferWrites_makes`, `accountTransferWrites_makes`: moving coins makes none,
  also where a module sends to itself.
* `commitWrites_records`: a commit for a height without a record adds one, with the
  coins it made.
* `Quiet`: a change that makes no coins and leaves all records alone.
-/

namespace Mintage

/-! ### Checked operations -/

lemma Except.bind_eq_ok_iff {ε α β : Type} {x : Except ε α} {f : α → Except ε β} {b : β} :
    x >>= f = .ok b ↔ ∃ a, x = .ok a ∧ f a = .ok b := by
  cases x with
  | error e => exact ⟨nofun, fun ⟨_, h, _⟩ => nomatch h⟩
  | ok a => exact ⟨fun h => ⟨a, rfl, h⟩, fun ⟨_, h, hf⟩ => by cases h; exact hf⟩

lemma Except.bind_of_ok {ε α β : Type} {x : Except ε α} (f : α → Except ε β) {a : α}
    (h : x = .ok a) : x >>= f = f a := by
  rw [h]
  rfl

lemma Except.bind_of_error {ε α β : Type} {x : Except ε α} (f : α → Except ε β) {e : ε}
    (h : x = .error e) : x >>= f = .error e := by
  rw [h]
  rfl

namespace Ledger

/-- A credit that is made is a sum. -/
lemma add?_of_credit {held coins sum : Coins} (h : credit held coins = .ok sum) :
    held.add? coins = some sum := by
  rw [credit, Coins.checkedAdd] at h
  cases hs : held.add? coins with
  | none => rw [hs] at h; cases h
  | some s =>
      rw [hs] at h
      exact congrArg some (Except.ok.inj h)

lemma credit_ok {held coins sum : Coins} (h : credit held coins = .ok sum) (denom : String) :
    sum.amounts denom = held.amounts denom + coins.amounts denom :=
  Coins.amountOf_add? (add?_of_credit h) denom

/-- A credit is made, or it is refused because the sum does not fit. -/
lemma credit_cases (held coins : Coins) :
    (∃ sum, credit held coins = .ok sum) ∨
      ∃ detail, credit held coins = .error (.overflow detail) := by
  rw [credit, Coins.checkedAdd]
  cases held.add? coins with
  | none => exact .inr ⟨_, rfl⟩
  | some s => exact .inl ⟨s, rfl⟩

/-- A credit is made where every denomination fits. -/
lemma credit_isOk (held coins : Coins) (h : ∀ d, held.amounts d + coins.amounts d < UInt64.size) :
    ∃ sum, credit held coins = .ok sum := by
  obtain ⟨s, hs⟩ := Option.isSome_iff_exists.1 (Coins.isSome_add?_iff.2 h)
  exact ⟨s, by rw [credit, Coins.checkedAdd, hs]⟩

/-- A credit is refused where some denomination does not fit. -/
lemma credit_isError (held coins : Coins) {denom : String}
    (h : UInt64.size ≤ held.amounts denom + coins.amounts denom) :
    ∃ detail, credit held coins = .error (.overflow detail) := by
  refine (credit_cases held coins).resolve_left ?_
  rintro ⟨sum, hsum⟩
  have hlt : sum.amounts denom < UInt64.size := UInt64.toNat_lt_size _
  rw [credit_ok hsum] at hlt
  omega

/-- A debit that is made is a difference. -/
lemma sub?_of_debit {holder : String} {held coins left : Coins}
    (h : debit holder held coins = .ok left) : held.sub? coins = some left := by
  rw [debit] at h
  cases hs : held.sub? coins with
  | none => rw [hs] at h; cases h
  | some s =>
      rw [hs] at h
      exact congrArg some (Except.ok.inj h)

lemma debit_ok {holder : String} {held coins left : Coins} (h : debit holder held coins = .ok left)
    (denom : String) : left.amounts denom + coins.amounts denom = held.amounts denom :=
  Coins.amountOf_sub? (sub?_of_debit h) denom

/-- A debit is made where the holder has the coins, and refused where it has not. -/
lemma debit_cases (holder : String) (held coins : Coins) :
    (coins.Within held ∧ ∃ left, debit holder held coins = .ok left) ∨
      (¬ coins.Within held ∧ debit holder held coins
        = .error (.insufficientFunds holder coins held)) := by
  rw [← Coins.isSome_sub?_iff, debit]
  cases held.sub? coins with
  | none => exact .inr ⟨Bool.false_ne_true, rfl⟩
  | some left => exact .inl ⟨rfl, left, rfl⟩

lemma amounts_of_isEmpty {coins : Coins} (h : coins.isEmpty = true) : coins.amounts = fun _ => 0 :=
  funext fun d => by rw [Coins.amounts, Coins.amountOf_of_isEmpty h]; rfl

/-! ### What the operations write -/

section Writes

variable {L : Ledger} {ws : List Write} {coins : Coins}

/-- New coins of a holder: what it had and has, and what the supply counted and counts. -/
structure Issued (L : Ledger) (holder : Key) (coins had has counted counts : Coins) : Prop where
  before : L.loadCoins holder = .ok had
  credited : credit had coins = .ok has
  supply : L.supply = .ok counted
  raised : credit counted coins = .ok counts

/-- Giving new coins to a holder writes its balance and the supply, each with the coins
added. -/
lemma issueWrites_cases {holder : Key} {writes : Coins → Coins → List Write}
    (h : L.issueWrites holder coins writes = .ok ws) :
    ∃ had has counted counts,
      L.Issued holder coins had has counted counts ∧ ws = writes has counts := by
  obtain ⟨had, hhad, h⟩ := Except.bind_eq_ok_iff.1 h
  obtain ⟨has, hhas, h⟩ := Except.bind_eq_ok_iff.1 h
  obtain ⟨counted, hcounted, h⟩ := Except.bind_eq_ok_iff.1 h
  obtain ⟨counts, hcounts, h⟩ := Except.bind_eq_ok_iff.1 h
  exact ⟨had, has, counted, counts, ⟨hhad, hhas, hcounted, hcounts⟩, (Except.ok.inj h).symm⟩

/-- Coins that a module pays to another holder: what it had and has left, and what the
other held and holds. -/
structure Paid (L : Ledger) (sender : String) (recipient : Key)
    (coins had left held holds : Coins) : Prop where
  before : L.moduleBalance sender = .ok had
  debited : debit sender had coins = .ok left
  found : L.loadCoins recipient = .ok held
  credited : credit held coins = .ok holds

/-- Paying a holder writes the balance of the module without the coins and the holder's
with them. -/
lemma paymentWrites_cases {sender : String} {recipient : Key}
    {writes : Coins → Coins → List Write}
    (h : L.paymentWrites sender recipient coins writes = .ok ws) :
    ∃ had left held holds,
      L.Paid sender recipient coins had left held holds ∧ ws = writes left holds := by
  obtain ⟨had, hhad, h⟩ := Except.bind_eq_ok_iff.1 h
  obtain ⟨left, hleft, h⟩ := Except.bind_eq_ok_iff.1 h
  obtain ⟨held, hheld, h⟩ := Except.bind_eq_ok_iff.1 h
  obtain ⟨holds, hholds, h⟩ := Except.bind_eq_ok_iff.1 h
  exact ⟨had, left, held, holds, ⟨hhad, hleft, hheld, hholds⟩, (Except.ok.inj h).symm⟩

/-- Making coins issues them to a module, if there are any. -/
lemma mintWrites_cases {name : String} (h : L.mintWrites name coins = .ok ws) :
    (coins.isEmpty = true ∧ ws = []) ∨
    ∃ had has counted counts, L.Issued (.moduleBalance name) coins had has counted counts ∧
      ws = [.put (.moduleBalance name) has, .put .supply counts] := by
  rw [mintWrites] at h
  split at h
  · next hc => exact .inl ⟨hc, (Except.ok.inj h).symm⟩
  · exact .inr (issueWrites_cases h)

/-- A commit issues coins to an account, and writes the account and the record with them. -/
lemma commitWrites_cases {account : Account} {record : MintRecord}
    (h : L.commitWrites account coins record = .ok ws) :
    ∃ had has counted counts,
      L.Issued (.balance account.address.encoded) coins had has counted counts ∧
      ws = [.put (.account account.address.encoded) account,
        .put (.balance account.address.encoded) has,
        .put .supply counts, .put (.mintRecord record.blockHeight) record] :=
  issueWrites_cases h

/-- Moving coins between modules is a payment, where there are any and the modules
differ. -/
lemma moduleTransferWrites_cases {sender recipient : String}
    (h : L.moduleTransferWrites sender recipient coins = .ok ws) :
    ((coins.isEmpty = true ∨ sender = recipient) ∧ ws = []) ∨
    ∃ had left held holds, sender ≠ recipient ∧
      L.Paid sender (.moduleBalance recipient) coins had left held holds ∧
      ws = [.put (.moduleBalance sender) left, .put (.moduleBalance recipient) holds] := by
  rw [moduleTransferWrites] at h
  split at h
  · next hc => exact .inl ⟨hc, (Except.ok.inj h).symm⟩
  · next hc =>
      obtain ⟨had, left, held, holds, hpaid, hws⟩ := paymentWrites_cases h
      exact .inr ⟨had, left, held, holds, fun he => hc (.inr he), hpaid, hws⟩

/-- Moving coins to an account is a payment, where there are any. -/
lemma accountTransferWrites_cases {sender : String} {recipient : Address}
    (h : L.accountTransferWrites sender recipient coins = .ok ws) :
    ws = [] ∨
    ∃ had left held holds, L.Paid sender (.balance recipient.encoded) coins had left held holds ∧
      ws = [.put (.moduleBalance sender) left, .put (.balance recipient.encoded) holds] := by
  rw [accountTransferWrites] at h
  split at h
  · exact .inl (Except.ok.inj h).symm
  · exact .inr (paymentWrites_cases h)

/-- The keys that making coins writes under. -/
lemma mintWrites_keys {name : String} (h : L.mintWrites name coins = .ok ws) :
    ∀ w ∈ ws, w.key = .moduleBalance name ∨ w.key = .supply := by
  rcases mintWrites_cases h with ⟨-, rfl⟩ | ⟨_, _, _, _, -, rfl⟩
  · nofun
  · simp [Write.put]

/-- The keys that moving coins between modules writes under. -/
lemma moduleTransferWrites_keys {sender recipient : String}
    (h : L.moduleTransferWrites sender recipient coins = .ok ws) :
    ∀ w ∈ ws, w.key = .moduleBalance sender ∨ w.key = .moduleBalance recipient := by
  rcases moduleTransferWrites_cases h with ⟨-, rfl⟩ | ⟨_, _, _, _, -, -, rfl⟩
  · nofun
  · simp [Write.put]

/-- The keys that a commit writes under. -/
lemma commitWrites_keys {account : Account} {record : MintRecord}
    (h : L.commitWrites account coins record = .ok ws) :
    ∀ w ∈ ws, w.key = .account account.address.encoded ∨ w.key = .balance account.address.encoded ∨
      w.key = .supply ∨ w.key = .mintRecord record.blockHeight := by
  obtain ⟨_, _, _, _, -, rfl⟩ := commitWrites_cases h
  simp [Write.put]

end Writes

/-! ### New coins -/

/-- How the totals of a ledger have changed when some coins are new: the supply counts
them, and someone holds them. -/
structure Makes (L M : Ledger) (made : String → Nat) : Prop where
  wellFormed : L.WellFormed → M.WellFormed
  supply : ∀ denom, M.supplyTotal denom = L.supplyTotal denom + made denom
  holdings : ∀ denom, M.holdings denom = L.holdings denom + made denom

namespace Makes

variable {L M N : Ledger}

lemma refl (L : Ledger) : L.Makes L fun _ => 0 := ⟨id, fun _ => rfl, fun _ => rfl⟩

lemma trans {made more : String → Nat} (h : L.Makes M made) (h' : M.Makes N more) :
    L.Makes N fun d => made d + more d where
  wellFormed := h'.wellFormed ∘ h.wellFormed
  supply d := by rw [h'.supply, h.supply, Nat.add_assoc]
  holdings d := by rw [h'.holdings, h.holdings, Nat.add_assoc]

/-- Two changes of which the first makes nothing. -/
lemma zero_trans {made : String → Nat} (h : L.Makes M fun _ => 0) (h' : M.Makes N made) :
    L.Makes N made := by
  simpa only [Nat.zero_add] using h.trans h'

/-- Two changes of which the second makes nothing. -/
lemma trans_zero {made : String → Nat} (h : L.Makes M made) (h' : M.Makes N fun _ => 0) :
    L.Makes N made := by
  simpa only [Nat.add_zero] using h.trans h'

/-- What is in circulation is held by someone, and coins that are new to one are new to
the other. -/
lemma balanced {made : String → Nat} (h : L.Makes M made) (hL : ∀ d, L.supplyTotal d = L.holdings d)
    (d : String) : M.supplyTotal d = M.holdings d := by
  rw [h.supply, h.holdings, hL]

end Makes

end Ledger

/-- Whether the entry stands for coins in circulation. -/
def Key.HoldsCoins : Key → Prop
  | supply | balance _ | moduleBalance _ => True
  | _ => False

/-- Whether the entry says what someone holds. -/
def Key.IsBalance : Key → Prop
  | balance _ | moduleBalance _ => True
  | _ => False

lemma Key.IsBalance.holdsCoins {k : Key} (hk : k.IsBalance) : k.HoldsCoins := by
  cases k <;> first | exact trivial | exact hk.elim

lemma Key.IsBalance.ne_supply {k : Key} (hk : k.IsBalance) : k ≠ .supply := by
  rintro rfl
  exact hk

namespace Ledger

/-- Storing an entry that holds no coins makes none. -/
lemma store_makes (L : Ledger) {w : Write} (hfit : w.Fits) (hw : ¬ w.key.HoldsCoins) :
    L.Makes (L.store w) fun _ => 0 where
  wellFormed hL := hL.store hfit
  supply d := supplyTotal_store_ne L (fun h => hw (h ▸ trivial)) d
  holdings d := by
    rw [holdings, moduleTotal_store_of_not L (fun _ h => hw (h ▸ trivial)),
      accountTotal_store_of_not L fun _ h => hw (h ▸ trivial)]
    rfl

/-- Storing coins under a key for coins keeps a ledger well-formed. -/
lemma WellFormed.storeCoins {L : Ledger} (hL : L.WellFormed) (k : Key) (hk : k.HoldsCoins)
    (c : Coins) : (L.store (.put k c)).WellFormed := by
  refine hL.store (w := .put k c) ?_
  cases k <;> first | exact ⟨c, rfl⟩ | exact hk.elim

/-- Storing a balance changes the holdings by the difference to what the holder had. -/
lemma holdings_store_balance {L : Ledger} {k : Key} (hk : k.IsBalance) {had : Coins}
    (h : L.loadCoins k = .ok had) (has : Coins) (d : String) :
    (L.store (.put k has)).holdings d + had.amounts d = L.holdings d + has.amounts d := by
  cases k with
  | moduleBalance name =>
      have hm := sumUnder_store L (w := .put (.moduleBalance name) has)
        (Key.moduleStart_prefix_iff.2 ⟨name, rfl⟩) coinsOf d
      have ha := accountTotal_store_of_not L (w := .put (.moduleBalance name) has)
        (fun _ hkey => by cases hkey) d
      simp only [Write.put, elim_coinsOf_of_loadCoins h, coinsOf_pack] at hm ha
      simp only [holdings, moduleTotal, Coins.amounts, ha, Write.put]
      omega
  | balance a =>
      have ha := sumUnder_store L (w := .put (.balance a) has)
        (Key.balanceStart_prefix_iff.2 ⟨a, rfl⟩) coinsOf d
      have hm := moduleTotal_store_of_not L (w := .put (.balance a) has)
        (fun _ hkey => by cases hkey) d
      simp only [Write.put, elim_coinsOf_of_loadCoins h, coinsOf_pack] at hm ha
      simp only [holdings, accountTotal, Coins.amounts, hm, Write.put]
      omega
  | _ => exact hk.elim

/-- Storing the supply does not change the holdings. -/
lemma holdings_store_supply (L : Ledger) (c : Coins) (d : String) :
    (L.store (.put .supply c)).holdings d = L.holdings d := by
  rw [holdings, moduleTotal_store_of_not L (w := .put .supply c) nofun,
    accountTotal_store_of_not L (w := .put .supply c) nofun]
  rfl

/-- Giving coins to a holder and counting them makes just these coins. -/
theorem Issued.makes {L : Ledger} {k : Key} {had has counted counts coins : Coins}
    (h : L.Issued k coins had has counted counts) (hk : k.IsBalance) :
    L.Makes ((L.store (.put k has)).store (.put .supply counts)) coins.amounts := by
  refine ⟨?_, ?_, ?_⟩
  · intro hL
    exact (hL.storeCoins k hk.holdsCoins has).storeCoins .supply trivial counts
  · intro d
    rw [supplyTotal_store_self, supplyTotal_of_supply h.supply]
    exact credit_ok h.raised d
  · intro d
    have hstored := holdings_store_balance hk h.before has d
    rw [credit_ok h.credited d] at hstored
    rw [holdings_store_supply]
    omega

/-- Taking coins from one holder and giving them to another makes none. -/
theorem Paid.makes {L : Ledger} {sender : String} {k : Key} {had left held holds coins : Coins}
    (h : L.Paid sender k coins had left held holds) (hk : k.IsBalance)
    (hne : .moduleBalance sender ≠ k) :
    L.Makes ((L.store (.put (.moduleBalance sender) left)).store (.put k holds)) fun _ => 0 := by
  -- the second holder is another one, so its balance reads as it did before the first
  -- write
  have hheld : (L.store (.put (.moduleBalance sender) left)).loadCoins k = .ok held :=
    (loadCoins_store_ne L hne).trans h.found
  refine ⟨?_, ?_, ?_⟩
  · intro hL
    exact (hL.storeCoins (.moduleBalance sender) trivial left).storeCoins k hk.holdsCoins holds
  · intro d
    rw [supplyTotal_store_ne _ (w := .put k holds) hk.ne_supply,
      supplyTotal_store_ne L (w := .put (.moduleBalance sender) left) nofun]
    rfl
  · intro d
    have hfirst := holdings_store_balance (k := .moduleBalance sender) trivial h.before left d
    have hsecond := holdings_store_balance hk hheld holds d
    have hd := debit_ok h.debited d
    rw [credit_ok h.credited d] at hsecond
    omega

section Operations

variable {L : Ledger} {ws : List Write} {coins : Coins}

/-- **Making coins** makes just these coins. -/
theorem mintWrites_makes {name : String} (h : L.mintWrites name coins = .ok ws) :
    L.Makes (L.apply ws) coins.amounts := by
  rcases mintWrites_cases h with ⟨hc, rfl⟩ | ⟨had, has, counted, counts, hissued, rfl⟩
  · rw [amounts_of_isEmpty hc]
    exact .refl L
  · exact hissued.makes trivial

/-- **Moving coins between modules** makes none. -/
theorem moduleTransferWrites_makes {sender recipient : String}
    (h : L.moduleTransferWrites sender recipient coins = .ok ws) :
    L.Makes (L.apply ws) fun _ => 0 := by
  rcases moduleTransferWrites_cases h with ⟨-, rfl⟩ | ⟨had, left, held, holds, hne, hpaid, rfl⟩
  · exact .refl L
  · have hne' : Key.moduleBalance sender ≠ .moduleBalance recipient := by
      intro hk
      exact hne (Key.moduleBalance.inj hk)
    exact hpaid.makes trivial hne'

/-- **Moving coins from a module to an account** makes none. -/
theorem accountTransferWrites_makes {sender : String} {recipient : Address}
    (h : L.accountTransferWrites sender recipient coins = .ok ws) :
    L.Makes (L.apply ws) fun _ => 0 := by
  rcases accountTransferWrites_cases h with rfl | ⟨had, left, held, holds, hpaid, rfl⟩
  · exact .refl L
  · exact hpaid.makes trivial nofun

/-- **A commit** makes the coins that it credits to the account. -/
theorem commitWrites_makes {account : Account} {record : MintRecord}
    (h : L.commitWrites account coins record = .ok ws) : L.Makes (L.apply ws) coins.amounts := by
  obtain ⟨had, has, counted, counts, hissued, rfl⟩ := commitWrites_cases h
  -- the account comes before the credit, and the record after it; neither holds coins
  have haccount :=
    store_makes L (w := .put (.account account.address.encoded) account) ⟨account, rfl⟩ nofun
  refine haccount.zero_trans
    (.trans_zero ?_ (store_makes _ (w := .put (.mintRecord _) record) ⟨record, rfl⟩ nofun))
  have hafter (k : Key) (hk : k.HoldsCoins) :
      (L.store (.put (.account account.address.encoded) account)).loadCoins k = L.loadCoins k :=
    loadCoins_store_ne L (w := .put (.account account.address.encoded) account) fun h => by
      subst h
      exact hk
  have hissued' : (L.store (.put (.account account.address.encoded) account)).Issued
      (.balance account.address.encoded) coins had has counted counts :=
    ⟨(hafter (.balance _) trivial).trans hissued.before, hissued.credited,
      (hafter .supply trivial).trans hissued.supply, hissued.raised⟩
  exact hissued'.makes trivial

end Operations

/-! ### Records -/

/-- Both ledgers hold the same records. -/
structure SameRecords (L M : Ledger) : Prop where
  entry : ∀ height, M.bytes? (.mintRecord height) = L.bytes? (.mintRecord height)
  total : ∀ denom, M.recordTotal denom = L.recordTotal denom

namespace SameRecords

variable {L M N : Ledger}

lemma refl (L : Ledger) : L.SameRecords L := ⟨fun _ => rfl, fun _ => rfl⟩

lemma trans (h : L.SameRecords M) (h' : M.SameRecords N) : L.SameRecords N :=
  ⟨fun k => (h'.entry k).trans (h.entry k), fun d => (h'.total d).trans (h.total d)⟩

/-- Storing anything but a record leaves the records as they are. -/
lemma store (L : Ledger) {w : Write} (hw : ∀ height, w.key ≠ .mintRecord height) :
    L.SameRecords (L.store w) :=
  ⟨fun k => bytes?_store_ne L (hw k), recordTotal_store_of_not L hw⟩

end SameRecords

/-- A mint is new, and so is its record; every other height keeps what it had. -/
structure Records (L M : Ledger) (r : MintRecord) : Prop where
  makes : L.Makes M r.amount.amounts
  new : L.bytes? (.mintRecord r.blockHeight) = none
  stored : M.bytes? (.mintRecord r.blockHeight) = some (Packed.pack r)
  others : ∀ height, height ≠ r.blockHeight →
    M.bytes? (.mintRecord height) = L.bytes? (.mintRecord height)
  total : ∀ denom, M.recordTotal denom = L.recordTotal denom + r.amount.amounts denom

/-- Neither coins nor records are new. -/
structure Quiet (L M : Ledger) : Prop where
  makes : L.Makes M fun _ => 0
  sameRecords : L.SameRecords M

namespace Quiet

variable {L M N : Ledger}

lemma refl (L : Ledger) : L.Quiet L := ⟨.refl L, .refl L⟩

lemma trans (h : L.Quiet M) (h' : M.Quiet N) : L.Quiet N :=
  ⟨h.makes.zero_trans h'.makes, h.sameRecords.trans h'.sameRecords⟩

/-- A mint is recorded after a quiet change too. -/
lemma trans_records (h : L.Quiet M) {r : MintRecord} (h' : M.Records N r) : L.Records N r where
  makes := h.makes.zero_trans h'.makes
  new := (h.sameRecords.entry _).symm.trans h'.new
  stored := h'.stored
  others k hk := (h'.others k hk).trans (h.sameRecords.entry k)
  total d := by rw [h'.total, h.sameRecords.total]

/-- Storing neither coins nor a record is quiet. -/
lemma store (L : Ledger) {w : Write} (hfit : w.Fits) (hw : ¬ w.key.HoldsCoins)
    (hr : ∀ height, w.key ≠ .mintRecord height) : L.Quiet (L.store w) :=
  ⟨store_makes L hfit hw, .store L hr⟩

end Quiet

lemma store_minter_quiet (L : Ledger) (m : Minter) : L.Quiet (L.store (.put .minter m)) :=
  .store L (w := .put .minter m) ⟨m, rfl⟩ nofun nofun

lemma store_params_quiet (L : Ledger) (p : Params) : L.Quiet (L.store (.put .params p)) :=
  .store L (w := .put .params p) ⟨p, rfl⟩ nofun nofun

lemma reserveNumber_quiet (L : Ledger) : L.Quiet (L.apply L.reserveNumber) :=
  .store L (w := ⟨.accountCounter, _⟩) ⟨_, rfl⟩ nofun nofun

section Operations

variable {L : Ledger} {ws : List Write} {coins : Coins}

lemma sameRecords_apply (L : Ledger) (h : ∀ w ∈ ws, ∀ height, w.key ≠ .mintRecord height) :
    L.SameRecords (L.apply ws) := by
  induction ws generalizing L with
  | nil => exact .refl L
  | cons w ws ih =>
      rw [apply_cons]
      exact (SameRecords.store L (h w (List.mem_cons_self ..))).trans
        (ih _ fun v hv => h v (List.mem_cons_of_mem _ hv))

lemma mintWrites_sameRecords {name : String} (h : L.mintWrites name coins = .ok ws) :
    L.SameRecords (L.apply ws) := by
  refine sameRecords_apply L fun w hw height hk => ?_
  rcases mintWrites_keys h w hw with hk' | hk' <;> rw [hk] at hk' <;> cases hk'

lemma moduleTransferWrites_sameRecords {sender recipient : String}
    (h : L.moduleTransferWrites sender recipient coins = .ok ws) : L.SameRecords (L.apply ws) := by
  refine sameRecords_apply L fun w hw height hk => ?_
  rcases moduleTransferWrites_keys h w hw with hk' | hk' <;> rw [hk] at hk' <;> cases hk'

/-- **A commit** for a height without a record records its mint. -/
theorem commitWrites_records {account : Account} {record : MintRecord}
    (h : L.commitWrites account record.amount record = .ok ws)
    (hnew : L.bytes? (.mintRecord record.blockHeight) = none) : L.Records (L.apply ws) record := by
  obtain ⟨had, has, counted, counts, -, hws⟩ := commitWrites_cases h
  have hsame : L.SameRecords (((L.store (.put (.account account.address.encoded) account)).store
      (.put (.balance account.address.encoded) has)).store (.put .supply counts)) :=
    ((SameRecords.store L (w := .put (.account account.address.encoded) account) nofun).trans
      (.store _ (w := .put (.balance account.address.encoded) has) nofun)).trans
      (.store _ (w := .put .supply counts) nofun)
  refine ⟨commitWrites_makes h, hnew, ?_, fun height hne => ?_, fun d => ?_⟩ <;> subst hws
  · exact bytes?_store_self _ (.put (.mintRecord record.blockHeight) record)
  · exact (bytes?_store_ne _ fun hk => hne (Key.mintRecord.inj hk).symm).trans (hsame.entry height)
  · exact (recordTotal_store ((hsame.entry _).trans hnew) d).trans
      (congrArg (· + _) (hsame.total d))

end Operations

end Ledger

end Mintage
