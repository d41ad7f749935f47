/-!
Command lines: options with and without values, words, and the command that the rest of
a line belongs to.

* `tokens`: what the arguments say, one after the other, up to the first that makes no
  sense.
-/

namespace Mintage.Arguments

/-- An option: its name, the letter that stands for it, and whether a value goes with it. -/
structure Spec where
  name : String
  letter : Option Char
  takesValue : Bool

/-- A part of a command line. -/
inductive Token where
  | option (name value : String)
  | flag (name : String)
  | word (s : String)
  /-- The first word, where that names a command, and the arguments that are left for it. -/
  | command (name : String) (rest : List String)
  | senseless
  deriving DecidableEq

/-- What one argument says on its own. -/
inductive Reading where
  | whole (t : Token)
  /-- An option whose value is the next argument. -/
  | open (name : String)
  /-- From here on there are words only. -/
  | endOfOptions
  | word

/-- An option, with the value written in the same argument. -/
def withValue (spec : Spec) (value : Option (List Char)) : Reading :=
  match spec.takesValue, value with
  | true, some v => .whole (.option spec.name (String.ofList v))
  | true, none => .open spec.name
  | false, some _ => .whole .senseless
  | false, none => .whole (.flag spec.name)

/-- The name of an option, and the value after an equals sign. -/
def cutValue (s : List Char) : List Char × Option (List Char) :=
  match s.dropWhile (· != '=') with
  | _ :: v => (s.takeWhile (· != '='), some v)
  | [] => (s, none)

/-- The value that follows a letter in the same argument. -/
def letterValue : List Char → Option (List Char)
  | [] => none
  | '=' :: v => some v
  | v => some v

/-- Reads one argument. -/
def read (specs : List Spec) (arg : String) : Reading :=
  match arg.toList with
  | ['-', '-'] => .endOfOptions
  | '-' :: '-' :: s =>
      let (name, value) := cutValue s
      match specs.find? fun p => p.name == String.ofList name with
      | some spec => withValue spec value
      | none => .whole .senseless
  | '-' :: c :: s =>
      match specs.find? fun p => p.letter == some c with
      | some spec => if spec.takesValue then withValue spec (letterValue s) else withValue spec none
      | none => .whole .senseless
  | _ => .word

/-- Whether an argument cannot be the value of the option before it. -/
def looksLikeOption (arg : String) : Bool :=
  match arg.toList with
  | '-' :: _ :: _ => true
  | _ => false

/-- What the arguments say. Where `commands` is set, the first word names a command. -/
def tokens (specs : List Spec) (commands : Bool) : List String → List Token
  | [] => []
  | a :: r =>
      match read specs a with
      | .whole .senseless => [.senseless]
      | .whole t => t :: tokens specs commands r
      | .endOfOptions => r.map fun w => if commands then .senseless else .word w
      | .word => if commands then [.command a r] else .word a :: tokens specs commands r
      | .open name =>
          match r with
          | [] => [.senseless]
          | v :: r =>
              if looksLikeOption v then [.senseless] else .option name v :: tokens specs commands r

/-! ### What a line asks for -/

/-- What a command line asks for instead of work. -/
inductive Early where
  | help
  | version
  | misuse
  deriving DecidableEq

/-- The options that every program has. -/
def common : List Spec :=
  [⟨"help", some 'h', false⟩, ⟨"version", some 'V', false⟩]

/-- The options of a command that takes none but the one for help. -/
def helpOnly : List Spec :=
  [⟨"help", some 'h', false⟩]

/-- Sets a value that may be given once. -/
def once {α : Type} (old : Option α) (new : Option α) : Except Early (Option α) :=
  match old, new with
  | none, some a => .ok (some a)
  | _, _ => .error .misuse

/-- A value that has to be given. -/
def required {α : Type} : Option α → Except Early α
  | some a => .ok a
  | none => .error .misuse

end Mintage.Arguments
