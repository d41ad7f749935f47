import Mintage.Proofs.Ledger.Bank

/-!
What the operations of the bank do to the coins of each holder.

* `Gains`: between two ledgers the coins under a key have grown by given amounts.
* `mint_transfer_gains`: minting coins in a module and sending them on counts them, and
  gives them to the module that they are sent to. The first module is left with what it
  had (`mint_transfer_passes`), also where it sends to itself or where there are no coins
  at all.
* `commitWrites_gains`: a commit counts its coins and gives them to the account.
-/

namespace Mintage

/-- What the coins under each key grow by when new coins are given to a holder: the
holder has them, and the supply counts them. -/
def Coins.gain (c : Coins) (holder k : Key) (denom : String) : Nat :=
  if k = .supply ∨ k = holder then c.amounts denom else 0

namespace Ledger

variable {L M N : Ledger} {k : Key} {coins : Coins}

/-- Between two ledgers, the coins under a key have grown by so much of each
denomination. What does not read as coins has not changed, and has grown by nothing. -/
inductive Gains (L M : Ledger) (k : Key) (more : String → Nat) : Prop where
  | read {held now : Coins} (before : L.loadCoins k = .ok held) (after : M.loadCoins k = .ok now)
      (sum : ∀ d, now.amounts d = held.amounts d + more d)
  | unread {e : StateError} (before : L.loadCoins k = .error e) (after : M.loadCoins k = .error e)
      (nothing : ∀ d, more d = 0)

namespace Gains

/-- Coins that read as before have grown by nothing. -/
lemma of_eq {more : String → Nat} (h : M.loadCoins k = L.loadCoins k) (hmore : ∀ d, more d = 0) :
    L.Gains M k more := by
  cases hk : L.loadCoins k with
  | error e => exact .unread hk (h.trans hk) hmore
  | ok held => exact .read hk (h.trans hk) fun d => by rw [hmore, Nat.add_zero]

lemma trans {more further : String → Nat} (h : L.Gains M k more) (h' : M.Gains N k further) :
    L.Gains N k fun d => more d + further d := by
  cases h with
  | read before after sum =>
      cases h' with
      | read before' after' sum' =>
          obtain rfl := Except.ok.inj (after.symm.trans before')
          exact .read before after' fun d => by rw [sum', sum, Nat.add_assoc]
      | unread before' => cases after.symm.trans before'
  | unread before after nothing =>
      cases h' with
      | read before' => cases after.symm.trans before'
      | unread before' after' nothing' =>
          obtain rfl := Except.error.inj (after.symm.trans before')
          exact .unread before after' fun d => by rw [nothing, nothing']

/-- A change before that leaves the coins alone adds nothing. -/
lemma of_before {more : String → Nat} (hbefore : M.loadCoins k = L.loadCoins k)
    (h : M.Gains N k more) : L.Gains N k more := by
  have hfirst : L.Gains M k fun _ => 0 := of_eq hbefore fun _ => rfl
  simpa only [Nat.zero_add] using hfirst.trans h

/-- A credit adds its coins. -/
lemma of_credit {held now : Coins} {more : String → Nat} (before : L.loadCoins k = .ok held)
    (hcredit : credit held coins = .ok now) (after : M.loadCoins k = .ok now)
    (hmore : ∀ d, more d = coins.amounts d) : L.Gains M k more :=
  .read before after fun d => by rw [hmore, credit_ok hcredit]

end Gains

lemma loadCoins_of_sameEntry (h : SameEntry k L M) : M.loadCoins k = L.loadCoins k := by
  rw [loadCoins, load?_of_sameEntry h, loadCoins]

lemma loadCoins_store_put (L : Ledger) (j k : Key) (c : Coins) :
    (L.store (.put j c)).loadCoins k = if j = k then .ok c else L.loadCoins k := by
  split
  · next h => rw [← h, loadCoins_store_self]
  · next h => exact loadCoins_store_ne L h

/-- Nothing is gained under a key that is neither the supply's nor the holder's. -/
lemma gain_of_ne {c : Coins} {holder k : Key} (hsupply : k ≠ .supply) (hholder : k ≠ holder)
    (d : String) : c.gain holder k d = 0 :=
  if_neg fun h => h.elim hsupply hholder

/-! ### Minting and sending on -/

section MintTransfer

variable {name recipient : String} {ws vs : List Write}

/-- Without coins nothing is written. -/
lemma mint_transfer_of_isEmpty (hempty : coins.isEmpty = true)
    (hws : L.mintWrites name coins = .ok ws)
    (hvs : (L.apply ws).moduleTransferWrites name recipient coins = .ok vs) :
    (L.apply ws).apply vs = L := by
  rw [mintWrites, if_pos hempty] at hws
  rw [moduleTransferWrites, if_pos (.inl hempty)] at hvs
  cases hws
  cases hvs
  rfl

/-- The ways in which minted coins reach the module that they are sent to: it is the one
that they are minted in, or another one that takes them over. -/
lemma mint_transfer_cases (hcoins : coins.isEmpty ≠ true)
    (hws : L.mintWrites name coins = .ok ws)
    (hvs : (L.apply ws).moduleTransferWrites name recipient coins = .ok vs) :
    ∃ had has counted counts, L.Issued (.moduleBalance name) coins had has counted counts ∧
      ws = [.put (.moduleBalance name) has, .put .supply counts] ∧
      ((name = recipient ∧ vs = []) ∨
      ∃ left held holds, name ≠ recipient ∧ debit name has coins = .ok left ∧
        L.moduleBalance recipient = .ok held ∧ credit held coins = .ok holds ∧
        vs = [.put (.moduleBalance name) left, .put (.moduleBalance recipient) holds]) := by
  rcases mintWrites_cases hws with ⟨hempty, -⟩ | ⟨had, has, counted, counts, hissued, rfl⟩
  · exact absurd hempty hcoins
  refine ⟨had, has, counted, counts, hissued, rfl, ?_⟩
  rcases moduleTransferWrites_cases hvs with
    ⟨hsame, rfl⟩ | ⟨had', left, held, holds, hne, hpaid, rfl⟩
  · exact .inl ⟨hsame.resolve_left hcoins, rfl⟩
  -- the sender has just what was minted there, and the recipient what it had
  have hhas' : has = had' := by simpa [moduleBalance, loadCoins_store_put] using hpaid.before
  have hheld' : L.moduleBalance recipient = .ok held := by
    simpa [moduleBalance, loadCoins_store_put, hne] using hpaid.found
  exact .inr ⟨left, held, holds, hne, hhas' ▸ hpaid.debited, hheld', hpaid.credited, rfl⟩

/-- **Coins minted in a module and sent on** are with the module that they are sent to,
and nowhere else. -/
theorem mint_transfer_gains (hws : L.mintWrites name coins = .ok ws)
    (hvs : (L.apply ws).moduleTransferWrites name recipient coins = .ok vs) (k : Key) :
    L.Gains ((L.apply ws).apply vs) k (coins.gain (.moduleBalance recipient) k) := by
  by_cases hempty : coins.isEmpty = true
  · rw [mint_transfer_of_isEmpty hempty hws hvs]
    exact .of_eq rfl fun d => by simp [Coins.gain, amounts_of_isEmpty hempty]
  obtain ⟨had, has, counted, counts, hissued, rfl, hsent⟩ :=
    mint_transfer_cases hempty hws hvs
  have hgain (d : String) (h : k = .supply ∨ k = .moduleBalance recipient) :
      coins.gain (.moduleBalance recipient) k d = coins.amounts d := if_pos h
  by_cases hsupply : k = .supply
  · refine .of_credit (hsupply ▸ hissued.supply) hissued.raised ?_ fun d =>
      hgain d (.inl hsupply)
    rcases hsent with ⟨rfl, rfl⟩ | ⟨left, held, holds, hne, hleft, hheld, hholds, rfl⟩ <;>
      simp [loadCoins_store_put, hsupply]
  by_cases hrecipient : k = .moduleBalance recipient
  · have hgain d := hgain d (.inr hrecipient)
    subst hrecipient
    rcases hsent with ⟨rfl, rfl⟩ | ⟨left, held, holds, hne, hleft, hheld, hholds, rfl⟩
    · exact .of_credit hissued.before hissued.credited (by simp [loadCoins_store_put]) hgain
    · exact .of_credit hheld hholds (by simp [loadCoins_store_put]) hgain
  have hnone := gain_of_ne (c := coins) hsupply hrecipient
  rcases hsent with ⟨rfl, rfl⟩ | ⟨left, held, holds, hne, hleft, hheld, hholds, rfl⟩
  · exact .of_eq (by simp [loadCoins_store_put, Ne.symm hsupply, Ne.symm hrecipient]) hnone
  by_cases hname : k = .moduleBalance name
  · subst hname
    have hafter : ((L.apply [.put (.moduleBalance name) has, .put .supply counts]).apply
        [.put (.moduleBalance name) left, .put (.moduleBalance recipient) holds]).loadCoins
          (.moduleBalance name) = .ok left := by
      simp [loadCoins_store_put, Ne.symm hne]
    refine .read hissued.before hafter fun d => ?_
    have hin := credit_ok hissued.credited d
    have hout := debit_ok hleft d
    rw [hnone d]
    omega
  · refine .of_eq ?_ hnone
    simp [loadCoins_store_put, Ne.symm hsupply, Ne.symm hrecipient, Ne.symm hname]

/-- Proper coins of the module that mints come out as they were. -/
theorem mint_transfer_passes (hne : recipient ≠ name) (hcoins : coins.Proper)
    (hws : L.mintWrites name coins = .ok ws)
    (hvs : (L.apply ws).moduleTransferWrites name recipient coins = .ok vs)
    {held : Coins} (hheld : L.moduleBalance name = .ok held) (hproper : held.Proper) :
    ((L.apply ws).apply vs).moduleBalance name = .ok held := by
  by_cases hempty : coins.isEmpty = true
  · rwa [mint_transfer_of_isEmpty hempty hws hvs]
  obtain ⟨had, has, counted, counts, hissued, rfl, hsent⟩ :=
    mint_transfer_cases hempty hws hvs
  rcases hsent with ⟨rfl, -⟩ | ⟨left, _, holds, -, hleft, -, -, rfl⟩
  · exact absurd rfl hne
  obtain rfl := Except.ok.inj (hissued.before.symm.trans hheld)
  have hleft : left = had :=
    hproper.sub?_of_add? hcoins (add?_of_credit hissued.credited) (sub?_of_debit hleft)
  rw [← hleft]
  simp [moduleBalance, loadCoins_store_put, hne]

end MintTransfer

/-! ### Committing a mint -/

/-- What a commit stores reads back. -/
lemma commitWrites_reads {account : Account} {record : MintRecord} {ws : List Write}
    (h : L.commitWrites account coins record = .ok ws) :
    (L.apply ws).account? account.address = .ok (some account) ∧
      (L.apply ws).mintRecord? record.blockHeight = .ok (some record) := by
  obtain ⟨_, has, _, counts, -, rfl⟩ := commitWrites_cases h
  simp only [apply_cons, apply_nil, account?, mintRecord?]
  refine ⟨?_, load?_store_self _ (.mintRecord record.blockHeight) record⟩
  have hne (j : Key) (hj : j ≠ .account account.address.encoded) {α : Type} [Packed α] (a : α) :
      (Write.put j a).key ≠ .account account.address.encoded := hj
  rw [load?_store_ne _ (hne (.mintRecord _) nofun record),
    load?_store_ne _ (hne .supply nofun counts), load?_store_ne _ (hne (.balance _) nofun has)]
  exact load?_store_self L (.account account.address.encoded) account

/-- **A commit** counts its coins, and gives them to the account. -/
theorem commitWrites_gains {account : Account} {record : MintRecord} {ws : List Write}
    (h : L.commitWrites account coins record = .ok ws) (hk : k.HoldsCoins) :
    L.Gains (L.apply ws) k (coins.gain (.balance account.address.encoded) k) := by
  obtain ⟨had, has, counted, counts, hissued, rfl⟩ := commitWrites_cases h
  -- the account and the record are no coins
  have hread : (L.apply [.put (.account account.address.encoded) account,
      .put (.balance account.address.encoded) has, .put .supply counts,
      .put (.mintRecord record.blockHeight) record]).loadCoins k
      = if .supply = k then .ok counts
        else if .balance account.address.encoded = k then .ok has else L.loadCoins k := by
    have haccount : (Write.put (.account account.address.encoded) account).key ≠ k := by
      rintro rfl
      exact hk
    have hrecord : (Write.put (.mintRecord record.blockHeight) record).key ≠ k := by
      rintro rfl
      exact hk
    simp only [apply_cons, apply_nil, loadCoins_store_ne _ hrecord, loadCoins_store_put,
      loadCoins_store_ne _ haccount]
  by_cases hsupply : k = .supply
  · subst hsupply
    exact .of_credit hissued.supply hissued.raised (by rw [hread, if_pos rfl]) fun d =>
      if_pos (.inl rfl)
  by_cases hholder : k = .balance account.address.encoded
  · subst hholder
    exact .of_credit hissued.before hissued.credited (by rw [hread, if_neg nofun, if_pos rfl])
      fun d => if_pos (.inr rfl)
  · exact .of_eq (by rw [hread, if_neg (Ne.symm hsupply), if_neg (Ne.symm hholder)])
      (gain_of_ne hsupply hholder)

end Ledger

end Mintage
