import Mintage.Emission.Timestamp
import Mintage.Error.State

/-!
The vesting lifecycle. Each mint moves its recipient's account at most one step: no
account becomes a delayed one with nothing locked, a plain account a delayed one that
locks its balance, and a delayed account a periodic one that releases its balance in ten
tranches. A periodic account stays as it is.

* `nextAccount`: the step, with the account number given by the caller.
-/

namespace Mintage

/-- Which step of the lifecycle was taken. -/
inductive Transition where
  | created
  | delayed
  | periodic
  | unchanged
  deriving DecidableEq

/-- The step by its name in reports. -/
def Transition.name : Transition → String
  | created => "Created"
  | delayed => "Delayed"
  | periodic => "Periodic"
  | unchanged => "Unchanged"

/-- An account after its step, and the step. -/
structure Advance where
  account : Account
  transition : Transition
  deriving DecidableEq

/-- Delayed coins are locked for ten years of 365 days. -/
def vestingSeconds : Int := 3650 * 86400

/-- The number of periods that a delayed balance is released in. -/
def trancheCount : Nat := 10

/-- The seconds from one tranche to the next. -/
def trancheSeconds : Int64 := 60

/-- The point at which delayed coins are released, where the calendar reaches that far. -/
def vestingEnd? (time : Timestamp) : Option Int64 :=
  if time.secs + vestingSeconds ≤ lastSecond
    then some (Int64.ofInt (time.secs + vestingSeconds)) else none

/-- The periodic account that releases a balance in equal tranches; what does not divide
is left out. -/
def periodicAccount (base : BaseAccount) (balance : Coins) (time : Timestamp) : Account :=
  let periods := List.replicate trancheCount ⟨trancheSeconds, balance.quo 10⟩
  let start := Int64.ofInt time.secs
  .periodic base balance start (start + (periods.map Period.length).sum) periods

/-- What the recipient's account needs for its step. -/
inductive VestingStep where
  /-- A new account; it still needs a number. -/
  | create (endTime : Int64)
  | replace (a : Advance)
  deriving DecidableEq

/-- The step of the account stored for an address. `balance` is what the account holds
before the mint. -/
def vestingStep (existing : Option Account) (address : Address) (balance : Coins)
    (time : Timestamp) : Except (Stop StateError) VestingStep :=
  match existing with
  | some a =>
      if a.address = address then
        match vestingEnd? time with
        | none => .error .crashed
        | some endTime =>
            match a with
            | .plain base => .ok (.replace ⟨.delayed base balance endTime, .delayed⟩)
            | .delayed base _ _ => .ok (.replace ⟨periodicAccount base balance time, .periodic⟩)
            | .periodic .. => .ok (.replace ⟨a, .unchanged⟩)
      else .error (.failed (.invalidAddress (.cause (.notOwner a.address address))))
  | none =>
      match vestingEnd? time with
      | none => .error .crashed
      | some endTime => .ok (.create endTime)

/-- A new account, with nothing locked yet. -/
def newAccount (address : Address) (number : UInt64) (endTime : Int64) : Advance :=
  ⟨.delayed (.new address number) .zero endTime, .created⟩

/-- The step of an account, with the number a new one gets. -/
def nextAccount (existing : Option Account) (address : Address) (balance : Coins) (time : Timestamp)
    (number : Except StateError UInt64) : Except (Stop StateError) Advance :=
  match vestingStep existing address balance time with
  | .error e => .error e
  | .ok (.replace a) => .ok a
  | .ok (.create endTime) =>
      match number with
      | .ok n => .ok (newAccount address n endTime)
      | .error e => .error (.failed e)

end Mintage
