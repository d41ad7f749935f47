import Mintage.Error.Value

/-!
The parameters of the mint module and the minter that works from them.

* `Params.validate`: a well-formed denomination, a positive halving interval, a goal in
  (0, 1], and at least one block a year, checked in that order.
-/

namespace Mintage

/-- How many base units make one whole token. -/
def unitsPerToken : Nat := 100000000

/-- What the mint module is run with. -/
structure Params where
  /-- The denomination that is minted. -/
  mintDenom : String
  /-- How many heights one decay period lasts. -/
  subsidyHalvingInterval : Dec
  /-- The bonded ratio aimed at; it is only reported. -/
  goalBonded : Dec
  blocksPerYear : UInt64
  deriving DecidableEq

namespace Params

/-- Five-second blocks in years of 8766 hours. -/
def default : Params where
  mintDenom := "ugd"
  subsidyHalvingInterval := Dec.withPrecision 100000000 2
  goalBonded := Dec.withPrecision 67 2
  blocksPerYear := 6311520

instance : Inhabited Params := ⟨default⟩

/-- A character that may follow the first in a denomination. -/
def isDenomChar (c : Char) : Bool :=
  c.isAlphanum || c == '/' || c == ':' || c == '.' || c == '_' || c == '-'

/-- A letter followed by 2 to 127 letters, digits or marks, all of them ASCII. -/
def isDenom (denom : String) : Bool :=
  match denom.toList with
  | [] => false
  | c :: r =>
      c.isAlpha && decide (3 ≤ denom.utf8ByteSize) && decide (denom.utf8ByteSize ≤ 128)
        && r.all isDenomChar

/-- A denomination has to be spelled as one. -/
def validateDenom (denom : String) : Except ParameterFault Unit :=
  if isDenom denom then .ok () else .error (.badDenom denom)

/-- The denomination of the subsidy may not be blank either. -/
def validateMintDenom (denom : String) : Except ParameterFault Unit :=
  if (Text.trim denom.toList).isEmpty then .error .blankDenom else validateDenom denom

/-- A halving interval lies above zero. -/
def validateInterval (interval : Dec) : Except ParameterFault Unit :=
  if interval.isNegative then .error (.negativeInterval interval)
  else if interval.isZero then .error .zeroInterval
  else .ok ()

/-- The goal lies above zero, and not above one. -/
def validateGoal (goal : Dec) : Except ParameterFault Unit :=
  if !goal.isPositive then .error (.goalNotPositive goal)
  else if Dec.one.raw < goal.raw then .error (.goalTooLarge goal)
  else .ok ()

/-- Refuses parameters that the subsidy cannot be computed with, naming the first fault. -/
def validate (p : Params) : Except ParameterFault Unit := do
  validateMintDenom p.mintDenom
  validateInterval p.subsidyHalvingInterval
  validateGoal p.goalBonded
  if p.blocksPerYear = 0 then .error .zeroBlocksPerYear else .ok ()

end Params

/-- The minter kept in the ledger: the halving interval it works with. -/
structure Minter where
  subsidyHalvingInterval : Dec
  deriving DecidableEq

namespace Minter

/-- The minter of a new chain; the first block replaces its interval by that of the
parameters. -/
def initial : Minter := ⟨Dec.withPrecision 13 2⟩

instance : Inhabited Minter := ⟨initial⟩

/-- A minter may have an interval of zero, but no negative one. -/
def validate (m : Minter) : Except ParameterFault Unit :=
  if m.subsidyHalvingInterval.isNegative
    then .error (.negativeMinterInterval m.subsidyHalvingInterval) else .ok ()

/-- The minter that works with the parameters' interval. -/
def syncWith (_ : Minter) (p : Params) : Minter :=
  ⟨p.subsidyHalvingInterval⟩

end Minter

end Mintage
