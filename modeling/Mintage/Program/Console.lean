import Mintage.Error.Mint
import Mintage.Text.Quoted

/-!
What a program shows and how it ends: coloured text, error reports and exit codes.
-/

namespace Mintage.Console

/-! ### Colours -/

/-- Text between two control sequences. -/
def styled (on off : Nat) (s : String) : String :=
  "\x1b[" ++ toString on ++ "m" ++ s ++ "\x1b[" ++ toString off ++ "m"

/-- Green text. -/
def green (s : String) : String := styled 32 39 s

/-- Yellow text. -/
def yellow (s : String) : String := styled 33 39 s

/-- Cyan text. -/
def cyan (s : String) : String := styled 36 39 s

/-- Gray text. -/
def gray (s : String) : String := styled 90 39 s

/-- Bold text. -/
def bold (s : String) : String := styled 1 0 s

/-- A line of the same character. -/
def rule (c : Char) (n : Nat) : String :=
  String.ofList (List.replicate n c) ++ "\n"

/-! ### Endings -/

/-- How a program ends: its exit code, what it has written, and the words for its
failure where those are its own. -/
structure Exit where
  code : Nat
  stdout : String
  stderr : Option String
  deriving DecidableEq

/-- A program that ends well. -/
def done (stdout : String) : Exit := ⟨0, stdout, none⟩

/-- A failure whose words belong to whoever reports it. -/
def failed (stdout : String) : Exit := ⟨1, stdout, none⟩

/-- A failure in the program's own words. -/
def failedWith (stdout words : String) : Exit := ⟨1, stdout, some ("Error: " ++ words)⟩

/-- The arguments make no sense. -/
def misused : Exit := ⟨2, "", none⟩

/-- A number left its range. -/
def crashed (stdout : String) : Exit := ⟨101, stdout, none⟩

/-! ### Error reports -/

/-- What an error rests on, where it rests on another one. -/
def cause? : MintError → Option StateError
  | .bank e | .store e => some e
  | _ => none

/-- An error and what it rests on. -/
def report (e : MintError) : String :=
  match cause? e with
  | some c => e.message ++ "\n\nCaused by:\n    " ++ c.message
  | none => e.message

end Mintage.Console
