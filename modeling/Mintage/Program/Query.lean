import Mintage.Data.Json
import Mintage.Emission.Subsidy
import Mintage.Net.Reply
import Mintage.Number.Shortest
import Mintage.Program.Help
import Mintage.Wire.Query

/-!
The query tool: asks a node, or works out a subsidy on its own, and shows the answer.

* `offlineProvision`: the subsidy of a block, given the seconds since the block before.
* `run`: what the tool does with a command line, given what comes of each request.
-/

namespace Mintage.QueryTool

open Console

/-! ### Asking -/

/-- Why a query has no answer. -/
inductive QueryError where
  /-- There is no readable answer. -/
  | unanswered
  /-- The node refuses the query. -/
  | refused (status : Nat) (message : String)
  deriving DecidableEq

/-- The error in words; a refusal comes with its status. -/
def QueryError.message : QueryError → String
  | .unanswered => "no answer"
  | .refused status message => message ++ " (" ++ Net.statusText status ++ ")"

/-- The value that a body holds. -/
def readBody? {α : Type} (read : Datum → Option α) (body : Bytes) : Option α :=
  (Json.read? body).bind read

/-- The message of a refusal. -/
def refusal (body : Bytes) (complete : Bool) : String :=
  ((if complete then Json.read? body else none).bind errorMessage?).getD "request failed"

/-- What a reply says. -/
def readReply {α : Type} (read : Datum → Option α) : Net.Reply → Except QueryError α
  | .unreachable => .error .unanswered
  | .answer status body complete =>
      if Net.isSuccess status then
        match if complete then readBody? read body else none with
        | some a => .ok a
        | none => .error .unanswered
      else .error (.refused status (refusal body complete))

/-! ### Working out a subsidy -/

/-- Why a subsidy cannot be worked out. -/
inductive ProvisionError where
  | invalidParameter (fault : ParameterFault)
  /-- So many seconds after the epoch there is no time. -/
  | outOfRange (elapsedSecs : Int64)
  deriving DecidableEq

/-- The error as the tool reports it. -/
def ProvisionError.message : ProvisionError → String
  | .invalidParameter f => "InvalidParameter(" ++ Text.quoted f.message ++ ")"
  | .outOfRange n => Text.quoted ("elapsed seconds out of range: " ++ toString n.toInt)

/-- The time so many seconds after the epoch, where there is one; a negative number
counts as zero. -/
def timeAfterEpoch? (elapsedSecs : Int64) : Option Timestamp :=
  Timestamp.ofUnix? (max elapsedSecs.toInt 0) 0

/-- The subsidy of a block so many seconds after the one before it, under the default
parameters with another halving interval. -/
def offlineProvision (height : UInt64) (elapsedSecs : Int64) (halvingInterval : Dec) :
    Except ProvisionError Coin :=
  let params := { Params.default with subsidyHalvingInterval := halvingInterval }
  match params.validate with
  | .error f => .error (.invalidParameter f)
  | .ok () =>
      match timeAfterEpoch? elapsedSecs with
      | none => .error (.outOfRange elapsedSecs)
      | some time => .ok (Mintage.provision params height time Timestamp.epoch)

/-! ### Showing -/

/-- A line for a mint. -/
def recordLine (r : MintRecord) : String :=
  "  " ++ gray "#" ++ " " ++ cyan (toString r.blockHeight.toNat) ++ "  " ++ green r.amount.text
    ++ "  " ++ r.account ++
    "\n"

/-- Heights as a list in brackets. -/
def showHeights (hs : List UInt64) : String :=
  "[" ++ ", ".intercalate (hs.map fun h => toString h.toNat) ++ "]"

/-- A title over a line. -/
def heading (title : String) : String :=
  "\n" ++ title ++ "\n" ++ rule '═' 35

/-- Where a chain stands, for a reader. -/
def showStatus (s : NodeStatus) : String :=
  heading "📊 Unigrid Chain Status" ++
    "Block Height:    "
      ++ ((s.height.map fun h => toString h.toNat).getD (yellow "no blocks yet")) ++ "\n" ++
    "Total Supply:    " ++ s.totalSupply.text ++ "\n" ++
    "Pending Mints:   " ++ showHeights s.pendingMints ++ "\n\n"

/-- The parameters, for a reader. -/
def showParams (p : Params) : String :=
  heading "⚙️  Mint Params" ++
    "Mint Denom:               " ++ p.mintDenom ++ "\n" ++
    "Subsidy Halving Interval: " ++ p.subsidyHalvingInterval.text ++ "\n" ++
    "Goal Bonded:              " ++ p.goalBonded.text ++ "\n" ++
    "Blocks Per Year:          " ++ toString p.blocksPerYear.toNat ++ "\n\n"

/-- All records, one a line. -/
def showRecords (rs : List MintRecord) : String :=
  heading ("💰 Hedgehog Mints (" ++ toString rs.length ++ ")")
    ++ String.join (rs.map recordLine) ++ "\n"

/-- One record, with the subsidy of its block. -/
def showRecord (r : MintRecord) : String :=
  recordLine r ++ "  block provision: " ++ r.blockProvision.text ++ "\n"

/-- An amount in base units and in whole tokens, those with eight places. -/
def showProvision (c : Coin) : String :=
  green c.text ++ " (" ++ ((Binary64.ofInt c.amount.toNat).overNat unitsPerToken).toFixed 8
    ++ " UGD)\n"

/-! ### Running -/

/-- Asks for a value and shows it. -/
def ask {α : Type} (fetch : String → Net.Reply) (locator : String) (read : Datum → Option α)
    (shown : α → String) : Exit :=
  match readReply read (fetch locator) with
  | .ok a => done (shown a)
  | .error .unanswered => failed ""
  | .error e => failedWith "" (Text.quoted e.message)

/-- The address of a node without slashes at its end. -/
def trimSlashes (api : String) : String :=
  String.ofList (api.toList.reverse.dropWhile (· == '/')).reverse

/-- Carries out a command. -/
def runCommand (fetch : String → Net.Reply) (api : String) : QueryCommand → Exit
  | .status => ask fetch (api ++ "/status") NodeStatus.ofDatum? showStatus
  | .params => ask fetch (api ++ "/params") Params.ofDatum? showParams
  | .halvingInterval => ask fetch (api ++ "/subsidy-halving-interval") intervalOfDatum? fun d =>
      d.text ++ "\n"
  | .mints => ask fetch (api ++ "/mints") (Datum.asList? MintRecord.ofDatum?) showRecords
  | .mint height =>
      ask fetch (api ++ "/mints/" ++ toString height.toNat) MintRecord.ofDatum? showRecord
  | .provision height elapsedSecs halvingInterval =>
      match offlineProvision height elapsedSecs halvingInterval with
      | .ok c => done (showProvision c)
      | .error e => failedWith "" e.message

/-- Carries out a command line, given what comes of each request. -/
def run (fetch : String → Net.Reply) (args : List String) : Exit :=
  match QueryLine.read args with
  | .ok line => runCommand fetch (trimSlashes line.api) line.command
  | .error e => Help.instead "ugd-cli" (Help.ofCommand e.about) e.early

end Mintage.QueryTool
