import Mintage.Ledger.Basic

/-!
The bank: making coins and moving them between modules and accounts. Every operation
checks what it needs and then yields its writes; a refused one yields none.

* `issueWrites`, `paymentWrites`: new coins for a holder, and coins that a module pays to
  another holder. The operations differ in the holder and in what they write.
* `commitWrites`: an account, its credit, the supply and the record of a scheduled mint
  go together.
-/

namespace Mintage.Ledger

/-- The sum of two sets of coins, or the ledger's error for one that does not fit. -/
def credit (held coins : Coins) : Except StateError Coins :=
  match held.checkedAdd coins with
  | .ok c => .ok c
  | .error e => .error (.overflow (.cause e))

/-- What a holder keeps after giving coins away. -/
def debit (holder : String) (held coins : Coins) : Except StateError Coins :=
  match held.sub? coins with
  | some c => .ok c
  | none => .error (.insufficientFunds holder coins held)

/-- Gives new coins to a holder and counts them: what is written once both sums fit. -/
def issueWrites (L : Ledger) (holder : Key) (coins : Coins)
    (writes : Coins → Coins → List Write) : Except StateError (List Write) := do
  let held ← credit (← L.loadCoins holder) coins
  let supply ← credit (← L.supply) coins
  return writes held supply

/-- Moves coins from a module to another holder: what is written once the module has them
and the sum fits. -/
def paymentWrites (L : Ledger) (sender : String) (recipient : Key) (coins : Coins)
    (writes : Coins → Coins → List Write) : Except StateError (List Write) := do
  let left ← debit sender (← L.moduleBalance sender) coins
  let held ← credit (← L.loadCoins recipient) coins
  return writes left held

/-- Makes coins in a module's balance and adds them to the supply. -/
def mintWrites (L : Ledger) (name : String) (coins : Coins) : Except StateError (List Write) :=
  if coins.isEmpty then .ok []
  else L.issueWrites (.moduleBalance name) coins fun held supply =>
    [.put (.moduleBalance name) held, .put .supply supply]

/-- Moves coins from one module to another. -/
def moduleTransferWrites (L : Ledger) (sender recipient : String) (coins : Coins) :
    Except StateError (List Write) :=
  if coins.isEmpty ∨ sender = recipient then .ok []
  else L.paymentWrites sender (.moduleBalance recipient) coins fun left held =>
    [.put (.moduleBalance sender) left, .put (.moduleBalance recipient) held]

/-- Moves coins from a module to an account. -/
def accountTransferWrites (L : Ledger) (sender : String) (recipient : Address) (coins : Coins) :
    Except StateError (List Write) :=
  if coins.isEmpty then .ok []
  else L.paymentWrites sender (.balance recipient.encoded) coins fun left held =>
    [.put (.moduleBalance sender) left, .put (.balance recipient.encoded) held]

/-- Stores an account, credits it with new coins and stores the record of the mint. -/
def commitWrites (L : Ledger) (account : Account) (coins : Coins) (record : MintRecord) :
    Except StateError (List Write) :=
  let address := account.address.encoded
  L.issueWrites (.balance address) coins fun held supply =>
    [.put (.account address) account, .put (.balance address) held, .put .supply supply,
      .put (.mintRecord record.blockHeight) record]

/-- The ledger with the writes of an operation made. -/
def commit (L : Ledger) (ws : Except StateError (List Write)) : Except StateError Ledger :=
  ws.map L.apply

end Mintage.Ledger
