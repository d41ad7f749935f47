/-!
What an error says about its cause: a cause that is known here, or the words of whoever
reports it. An error that can be raised from both sides carries one of these.
-/

namespace Mintage

/-- A known cause, or a cause put into words elsewhere. -/
inductive Detail (γ : Type) where
  | cause (c : γ)
  | stated (words : String)
  deriving DecidableEq, Repr

/-- The words for a cause, given the words for the known ones. -/
def Detail.message {γ : Type} (words : γ → String) : Detail γ → String
  | .cause c => words c
  | .stated w => w

end Mintage
