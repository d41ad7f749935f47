import Mintage.Data.OrderedMap
import Mintage.Text.Digits

/-!
Amounts of money in named denominations. A set of coins holds at most one amount of each
denomination, in the order of the names; every operation here leaves out amounts of zero
that it makes itself.

* `amountOf_insert`: what storing one amount does to all amounts.
-/

namespace Mintage

/-- An amount of one denomination, in its smallest unit. -/
structure Coin where
  denom : String
  amount : UInt64
  deriving DecidableEq

namespace Coin

/-- The amount with the denomination behind it. -/
def text (c : Coin) : String :=
  toString c.amount.toNat ++ c.denom

/-- A coin of nothing. -/
def isZero (c : Coin) : Bool :=
  c.amount == 0

end Coin

/-- The sum of two amounts, where it fits 64 bits. -/
def addAmounts? (a b : UInt64) : Option UInt64 :=
  Word.ofNat? (a.toNat + b.toNat)

/-- A set of coins: the amount of each denomination that occurs. -/
abbrev Coins := OrderedMap String UInt64

namespace Coins

/-- No coins. -/
def zero : Coins := OrderedMap.empty

/-- The amount of a denomination; one that does not occur counts as zero. -/
def amountOf (c : Coins) (denom : String) : UInt64 :=
  (c.get? denom).getD 0

/-- One coin, or no coins where its amount is zero. -/
def ofCoin (c : Coin) : Coins :=
  if c.isZero then zero else zero.insert c.denom c.amount

/-- The coins as a list, in the order of their denominations. -/
def coins (c : Coins) : List Coin :=
  c.toList.map fun e => ⟨e.1, e.2⟩

/-- The coins separated by commas. -/
def text (c : Coins) : String :=
  String.intercalate "," (c.coins.map Coin.text)

theorem amountOf_insert (c : Coins) (d e : String) (n : UInt64) :
    amountOf (c.insert d n) e = if d = e then n else c.amountOf e := by
  unfold amountOf
  split
  · next h => simp [h]
  · next h => rw [OrderedMap.get?_insert_ne _ _ h]

/-! ### Arithmetic -/

/-- Adds the amounts of a list one by one. -/
def addEntries? (c : Coins) : List (String × UInt64) → Option Coins
  | [] => some c
  | e :: r =>
      match addAmounts? (amountOf c e.1) e.2 with
      | some n => addEntries? (c.insert e.1 n) r
      | none => none

/-- The sum, where no amount exceeds 64 bits. -/
def add? (a b : Coins) : Option Coins :=
  addEntries? a b.toList

/-- Takes the amounts of a list away one by one. An amount that reaches zero is left out. -/
def subEntries? (c : Coins) : List (String × UInt64) → Option Coins
  | [] => some c
  | e :: r =>
      let held := amountOf c e.1
      if held < e.2 then none
      else if held = e.2 then subEntries? (c.erase e.1) r
      else subEntries? (c.insert e.1 (held - e.2)) r

/-- What is left when `b` is taken away, where `a` holds that much of every denomination. -/
def sub? (a b : Coins) : Option Coins :=
  subEntries? a b.toList

/-- Each amount divided by a whole number and rounded down; what reaches zero is left
out, and dividing by zero leaves nothing. -/
def quo (c : Coins) (divisor : UInt64) : Coins :=
  if divisor = 0 then zero
  else ⟨(c.filter fun _ n => n / divisor != 0).toList.map fun e => (e.1, e.2 / divisor),
    List.pairwise_map.2 (c.filter _).sorted⟩

end Coins

end Mintage
