import Mintage.Number.Dec
import Mintage.Text.Digits
import Mintage.Program.Arguments

/-!
The command line of the query tool.

* `QueryLine.read`: where the node is, and what to ask it.
-/

namespace Mintage

/-- What the query tool can do. -/
inductive QueryCommand where
  | status
  | params
  | halvingInterval
  | mints
  | mint (height : UInt64)
  /-- The subsidy of a block, worked out without a node. -/
  | provision (height : UInt64) (elapsedSecs : Int64) (halvingInterval : Dec)
  deriving DecidableEq

/-- A command line of the query tool. -/
structure QueryLine where
  api : String
  command : QueryCommand
  deriving DecidableEq

namespace QueryCommand

open Arguments

/-- Reads a command that takes nothing. -/
def readBare (c : QueryCommand) (args : List String) : Except Early QueryCommand :=
  match tokens helpOnly false args with
  | [] => .ok c
  | .flag "help" :: _ => .error .help
  | _ => .error .misuse

/-- The height given so far and one more argument. -/
def mintStep (height : Option UInt64) : Token → Except Early (Option UInt64)
  | .word w => once height (Text.readUInt64? w.toList)
  | .flag "help" => .error .help
  | _ => .error .misuse

/-- The command for one record needs a height. -/
def readMint (args : List String) : Except Early QueryCommand := do
  return .mint (← required (← (tokens helpOnly false args).foldlM mintStep none))

/-- What is known of a block whose subsidy is asked for. -/
structure ProvisionOptions where
  height : Option UInt64
  elapsedSecs : Option Int64
  halvingInterval : Option Dec

/-- The options of the command for a subsidy. -/
def provisionSpecs : List Spec :=
  [⟨"height", none, true⟩, ⟨"elapsed-secs", none, true⟩,
    ⟨"halving-interval", none, true⟩] ++ helpOnly

/-- Takes in one token; an option may be given once. -/
def provisionStep (o : ProvisionOptions) : Token → Except Early ProvisionOptions
  | .option "height" v => do return { o with height := ← once o.height (Text.readUInt64? v.toList) }
  | .option "elapsed-secs" v =>
      do return { o with elapsedSecs := ← once o.elapsedSecs (Text.readInt64? v.toList) }
  | .option "halving-interval" v => do
      return { o with halvingInterval := ← once o.halvingInterval (Dec.ofString? v) }
  | .flag "help" => .error .help
  | _ => .error .misuse

/-- The command for a subsidy needs a height; the time and the interval have defaults. -/
def readProvision (args : List String) : Except Early QueryCommand := do
  let o ← (tokens provisionSpecs false args).foldlM provisionStep ⟨none, none, none⟩
  return .provision (← required o.height) (o.elapsedSecs.getD 60)
    (o.halvingInterval.getD (Dec.ofInt64 1000000))

/-- Reads the command of a given name. -/
def read (name : String) (args : List String) : Except Early QueryCommand :=
  match name with
  | "status" => readBare .status args
  | "params" => readBare .params args
  | "subsidy-halving-interval" => readBare .halvingInterval args
  | "mints" => readBare .mints args
  | "mint" => readMint args
  | "provision" => readProvision args
  | _ => .error .misuse

/-- The commands that there are. -/
def names : List String :=
  ["status", "params", "subsidy-halving-interval", "mints", "mint", "provision"]

end QueryCommand

namespace QueryLine

open Arguments

/-- Where the node is looked for by default. -/
def defaultApi : String := "http://127.0.0.1:52885"

/-- The options that stand before the command. -/
def specs : List Spec :=
  ⟨"api", some 'a', true⟩ :: common

/-- Why a line gives no command: what the line asks for, and about which command. -/
structure Refusal where
  early : Early
  about : Option String
  deriving DecidableEq

/-- Reads a line for help on a command, or on the tool. -/
def readHelp : List String → Refusal
  | [] => ⟨.help, none⟩
  | [name] => if name ∈ "help" :: QueryCommand.names then ⟨.help, some name⟩ else ⟨.misuse, none⟩
  | _ => ⟨.misuse, none⟩

/-- Reads what the arguments say, with the address of the node as given so far. -/
def readTokens (api : Option String) : List Token → Except Refusal QueryLine
  | .option "api" v :: r =>
      if api.isSome then .error ⟨.misuse, none⟩ else readTokens (some v) r
  | .command "help" rest :: _ => .error (readHelp rest)
  | .command name rest :: _ =>
      match QueryCommand.read name rest with
      | .ok c => .ok ⟨api.getD defaultApi, c⟩
      | .error e => .error ⟨e, some name⟩
  | .flag "help" :: _ => .error ⟨.help, none⟩
  | .flag "version" :: _ => .error ⟨.version, none⟩
  | _ => .error ⟨.misuse, none⟩

/-- Reads a command line. -/
def read (args : List String) : Except Refusal QueryLine :=
  readTokens none (tokens specs true args)

end QueryLine

end Mintage
