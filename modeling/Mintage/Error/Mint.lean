import Mintage.Error.State

/-!
What can go wrong in a block, and which of it aborts the block.

* `MintError.isFatal`: parameters, bank, store and value errors abort; an error about
  the scheduled mint drops it.
-/

namespace Mintage

/-- Why a block, or the mint scheduled for it, fails. -/
inductive MintError where
  | invalidParameter (detail : Detail ParameterFault)
  | invalidAddress (detail : Detail StateError)
  | bank (e : StateError)
  | store (e : StateError)
  /-- The scheduled amount does not fit in base units. -/
  | invalidAmount (detail : Detail Int64)
  | alreadyMinted (height : UInt64)
  | value (e : ValueError)
  | state (e : StateError)
  deriving DecidableEq

namespace MintError

/-- The error in words. -/
def message : MintError → String
  | invalidParameter d => "Invalid parameter: " ++ d.message ParameterFault.message
  | invalidAddress d => "Invalid address: " ++ d.message StateError.message
  | bank e => "Bank operation failed: " ++ e.message
  | store e => "Store operation failed: " ++ e.message
  | invalidAmount d =>
      "Invalid mint amount: " ++
        d.message fun n => "feed amount " ++ toString n.toInt ++ " does not fit in base units"
  | alreadyMinted h => "Height " ++ toString h.toNat ++ " already minted"
  | value e => e.message
  | state e => e.message

/-- Whether the error aborts the block. -/
def isFatal : MintError → Bool
  | invalidParameter _ | bank _ | store _ | value _ => true
  | invalidAddress _ | invalidAmount _ | alreadyMinted _ | state _ => false

end MintError

end Mintage
