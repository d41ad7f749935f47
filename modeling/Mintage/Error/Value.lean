import Mintage.Error.Detail
import Mintage.Money.Coins
import Mintage.Number.Dec

/-!
What can be wrong with a value on its own: a parameter out of its range, text that is no
decimal, a sum of coins too large to hold.
-/

namespace Mintage

/-- What is wrong with a mint parameter or with the minter. -/
inductive ParameterFault where
  | blankDenom
  | badDenom (denom : String)
  | negativeInterval (interval : Dec)
  | zeroInterval
  | goalNotPositive (goal : Dec)
  | goalTooLarge (goal : Dec)
  | zeroBlocksPerYear
  | negativeMinterInterval (interval : Dec)
  deriving DecidableEq

/-- The fault in words, with the value that is refused. -/
def ParameterFault.message : ParameterFault → String
  | .blankDenom => "mint denom cannot be blank"
  | .badDenom d => "invalid denom: " ++ d
  | .negativeInterval i => "subsidy halving interval cannot be negative: " ++ i.text
  | .zeroInterval => "subsidy halving interval must be positive"
  | .goalNotPositive g => "goal bonded must be positive: " ++ g.text
  | .goalTooLarge g => "goal bonded too large: " ++ g.text
  | .zeroBlocksPerYear => "blocks per year must be positive: 0"
  | .negativeMinterInterval i =>
      "mint parameter subsidy halving interval should be positive, is " ++ i.text

/-- Two sets of coins whose sum does not fit. -/
structure ExcessiveSum where
  left : Coins
  right : Coins
  deriving DecidableEq

/-- The sum that does not fit, written out. -/
def ExcessiveSum.message (s : ExcessiveSum) : String :=
  s.left.text ++ " + " ++ s.right.text

/-- Why a value is refused. -/
inductive ValueError where
  | invalidParameter (detail : Detail ParameterFault)
  | invalidDecimal (text : String)
  | invalidCoin (words : String)
  | overflow (detail : Detail ExcessiveSum)
  deriving DecidableEq

/-- The error in words. -/
def ValueError.message : ValueError → String
  | .invalidParameter d => "Invalid parameter: " ++ d.message ParameterFault.message
  | .invalidDecimal t => "Invalid decimal: " ++ t
  | .invalidCoin w => "Invalid coin: " ++ w
  | .overflow d => "Arithmetic overflow: " ++ d.message ExcessiveSum.message

/-- The sum of two sets of coins, or the error that names both. -/
def Coins.checkedAdd (a b : Coins) : Except ValueError Coins :=
  match a.add? b with
  | some c => .ok c
  | none => .error (.overflow (.cause ⟨a, b⟩))

/-- Reads a decimal, or names the text that is none. -/
def Dec.parse (s : String) : Except ValueError Dec :=
  match Dec.ofString? s with
  | some d => .ok d
  | none => .error (.invalidDecimal s)

end Mintage
