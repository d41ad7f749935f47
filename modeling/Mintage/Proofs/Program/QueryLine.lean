import Mathlib.Tactic.Lemma
import Mintage.Program.Query
import Mintage.Proofs.Number.Dec
import Mintage.Proofs.Text.Digits

/-!
Command lines of the query tool that ask for a subsidy.

* `Arguments.tokens_assignment`: an option and its value in one argument are read as that.
* `QueryTool.run_provisionLine`: a line that names a height, a number of seconds and an interval
  asks for the subsidy with just these, the negative numbers included.
-/

namespace Mintage

namespace Arguments

/-! ### Options -/

/-- An option and its value in one argument. -/
def assignment (name value : String) : String :=
  "--" ++ name ++ "=" ++ value

/-- A value is cut off at the first equals sign. -/
lemma cutValue_append {name : List Char} (h : '=' ∉ name) (value : List Char) :
    cutValue (name ++ '=' :: value) = (name, some value) := by
  have hname : ∀ c ∈ name, (c != '=') = true := fun c hc => by
    simpa using fun heq : c = '=' => h (heq ▸ hc)
  rw [cutValue, List.dropWhile_append_of_pos hname, List.takeWhile_append_of_pos hname]
  simp

lemma toList_assignment (name value : String) :
    (assignment name value).toList = '-' :: '-' :: (name.toList ++ '=' :: value.toList) := by
  simp [assignment]

/-- **An option with its value** in one argument is read as that. -/
lemma tokens_assignment {specs : List Spec} {name : String} {spec : Spec}
    (hfound : (specs.find? fun p => p.name == name) = some spec) (htakes : spec.takesValue = true)
    (hname : '=' ∉ name.toList) (commands : Bool) (value : String) (r : List String) :
    tokens specs commands (assignment name value :: r)
      = .option spec.name value :: tokens specs commands r := by
  have hread : read specs (assignment name value) = .whole (.option spec.name value) := by
    obtain ⟨c, rest, hrest⟩ := List.exists_cons_of_ne_nil
      (List.append_ne_nil_of_right_ne_nil name.toList (List.cons_ne_nil '=' value.toList))
    simp only [read, toList_assignment, hrest]
    rw [← hrest, cutValue_append hname]
    simp [hfound, withValue, htakes]
  rw [tokens, hread]

end Arguments

namespace QueryTool

open Arguments

/-! ### The line -/

/-- What the command is told: a height, the seconds since the block before, and an interval. -/
def provisionArguments (height : UInt64) (elapsedSecs : Int64) (interval : Dec) : List String :=
  [assignment "height" (toString height.toNat),
    assignment "elapsed-secs" (toString elapsedSecs.toInt),
    assignment "halving-interval" interval.text]

/-- The line that asks for a subsidy. -/
def provisionLine (height : UInt64) (elapsedSecs : Int64) (interval : Dec) : List String :=
  "provision" :: provisionArguments height elapsedSecs interval

/-- What the command is told is read as it is written. -/
lemma readProvision_arguments (height : UInt64) (elapsedSecs : Int64) (interval : Dec) :
    QueryCommand.readProvision (provisionArguments height elapsedSecs interval)
      = .ok (.provision height elapsedSecs interval) := by
  rw [QueryCommand.readProvision, provisionArguments, tokens_assignment rfl rfl (by decide),
    tokens_assignment rfl rfl (by decide), tokens_assignment rfl rfl (by decide), tokens]
  simp only [List.foldlM_cons, QueryCommand.provisionStep, Text.readUInt64?_toString,
    Text.readInt64?_toString, Dec.ofString?_text]
  rfl

/-- **The line** is read as the command. -/
theorem read_provisionLine (height : UInt64) (elapsedSecs : Int64) (interval : Dec) :
    QueryLine.read (provisionLine height elapsedSecs interval)
      = .ok ⟨QueryLine.defaultApi, .provision height elapsedSecs interval⟩ := by
  have htokens (rest : List String) :
      tokens QueryLine.specs true ("provision" :: rest) = [.command "provision" rest] := rfl
  have hcommand : QueryCommand.read "provision" (provisionArguments height elapsedSecs interval)
      = .ok (.provision height elapsedSecs interval) :=
    readProvision_arguments height elapsedSecs interval
  rw [QueryLine.read, provisionLine, htokens]
  simp [QueryLine.readTokens, hcommand]

/-- The tool carries out what the line asks for. -/
lemma run_provisionLine (fetch : String → Net.Reply) (height : UInt64) (elapsedSecs : Int64)
    (interval : Dec) :
    run fetch (provisionLine height elapsedSecs interval)
      = runCommand fetch (trimSlashes QueryLine.defaultApi)
          (.provision height elapsedSecs interval) := by
  rw [run, read_provisionLine]

end QueryTool

end Mintage
