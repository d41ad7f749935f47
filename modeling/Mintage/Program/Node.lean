import Mintage.Block.Producer
import Mintage.Program.Help
import Mintage.Wire.Config

/-!
The node as a program: it reads its configuration, writes or finds its chain, goes on
from the last block, and then produces one block after another.

* `start`: everything up to the first block, with the ledger as it is then left.
* `Running.produce`, `Running.run`: one more block, and as many as were asked for.
* `finish`: the last words and the exit code.
-/

namespace Mintage.Node

open Console

/-! ### The command line -/

/-- A command line of the node. -/
structure Line where
  /-- The file of the configuration. -/
  config : Option String
  /-- How many blocks to produce; without a number the node goes on. -/
  blocks : Option UInt64
  /-- Whether the feed is left alone. -/
  noFeed : Bool
  deriving DecidableEq

namespace Line

open Arguments

/-- The options of the node. -/
def specs : List Spec :=
  [⟨"config", some 'c', true⟩, ⟨"blocks", none, true⟩, ⟨"no-feed", none, false⟩] ++ common

/-- Takes in one token; an option may be given once. -/
def step (l : Line) : Token → Except Early Line
  | .option "config" v =>
      if v.isEmpty then .error .misuse else do return { l with config := ← once l.config (some v) }
  | .option "blocks" v => do return { l with blocks := ← once l.blocks (Text.readUInt64? v.toList) }
  | .flag "no-feed" => if l.noFeed then .error .misuse else .ok { l with noFeed := true }
  | .flag "help" => .error .help
  | .flag "version" => .error .version
  | _ => .error .misuse

/-- Reads a command line. -/
def read (args : List String) : Except Early Line :=
  (tokens specs false args).foldlM step ⟨none, none, false⟩

/-- The file of the configuration. -/
def configPath (l : Line) (home : String) : String :=
  l.config.getD (expandHome home "$HOME/.ugd/config.toml")

/-- How many blocks the node produces at most; there is always one. -/
def limit? (l : Line) : Option Nat :=
  l.blocks.map fun n => max 1 n.toNat

end Line

/-! ### Starting -/

/-- A node that is ready for its next block. -/
structure Running where
  chain : Chain
  producer : Producer
  settings : Settings
  /-- Seconds from one block to the next. -/
  interval : UInt64
  /-- What has been written so far. -/
  stdout : String

/-- How a start ends: too early, or with a node that runs. -/
inductive Started where
  | stopped (exit : Exit)
  | running (r : Running)

/-- What the node shows first. -/
def banner (path : String) : String :=
  bold (cyan ("Unigrid Node v" ++ Help.version)) ++ "\nConfig file: " ++ Text.quoted path ++ "\n\n"

/-- What the node says about the genesis it found or wrote. -/
def genesisLine : GenesisStatus → String
  | .initialized => green "✓ Genesis written" ++ "\n"
  | .paramsUpdated => green "✓ Params updated from config" ++ "\n"
  | .existing => green "✓ Chain state loaded" ++ "\n"

/-- The line about the feed, where the feed is left alone or has a locator. -/
def feedLine? (noFeed : Bool) (s : FeedSettings) : Option String :=
  if noFeed then some (yellow "⚠ Hedgehog feed disabled" ++ "\n")
  else s.locator?.map fun u => green "✓ Hedgehog feed:" ++ " " ++ u.text ++ "\n"

/-- Where the interface can be reached, if it is enabled. -/
def apiLine (s : ApiSettings) : String :=
  if s.enabled then green "✓ API listening on" ++ " http://" ++ s.listen.text ++ "\n" else ""

/-- What the node shows once it runs. -/
def activeLines : String :=
  "\n" ++ bold (green "Node Status: ACTIVE") ++ "\n" ++ rule '━' 34 ++ "\n"

/-- A program that stops at an error. -/
def stopAt (stdout : String) : Stop MintError → Exit
  | .failed e => failedWith stdout (report e)
  | .crashed => crashed stdout

/-- Starts on a chain with the configuration read: genesis, then the last block, then
the feed. The chain is returned as it is left. -/
def startOn (l : Line) (config : Config) (params : Params) (stdout : String) (c : Chain) :
    Started × Chain :=
  match c.run Outages.none (MintM.ensureGenesis params) with
  | (.error e, c) => (.stopped (stopAt stdout e), c)
  | (.ok status, c) =>
      let stdout := stdout ++ genesisLine status
      match Producer.resume c Outages.none with
      | (.error e, c) => (.stopped (stopAt stdout e), c)
      | (.ok producer, c) =>
          match feedLine? l.noFeed config.feed with
          | none => (.stopped (failed stdout), c)
          | some line =>
              let stdout := stdout ++ line ++ apiLine config.api ++ activeLines
              (.running ⟨c, producer, config.chain.forBlocks,
                max 1 config.chain.blockIntervalSecs, stdout⟩, c)

/-- The configuration and the parameters of a node, or how it stops without them. -/
def readConfig (file : FileContent) (stdout : String) : Except Exit (Config × Params) :=
  match Config.read file with
  | .error _ => .error (failed stdout)
  | .ok config =>
      match config.startParams with
      | .error f => .error (failedWith stdout (ConfigError.invalidParams f).message)
      | .ok params => .ok (config, params)

/-- Starts a node: `file` is what stands in the file of its configuration, and
`ledgerIn` what a directory holds. The directory and the ledger that is left in it are
returned where the start came so far. -/
def start (l : Line) (home : String) (file : FileContent) (ledgerIn : String → Ledger) :
    Started × Option (String × Ledger) :=
  let stdout := banner (l.configPath home)
  match readConfig file stdout with
  | .error e => (.stopped e, none)
  | .ok (config, params) =>
      let directory := config.chain.directory home
      let c := { Chain.new config.feed.addressPrefix with ledger := ledgerIn directory }
      let (s, c) := startOn l config params stdout c
      (s, some (directory, c.ledger))

/-! ### Running -/

/-- The line about a finished block, where a scheduled mint was carried out. -/
def blockLine (o : BlockOutcome) : String :=
  match o.external with
  | .applied r _ =>
      "[" ++ toString o.height.toNat ++ "] " ++ green "hedgehog mint" ++ " " ++ r.amount.text
        ++ " -> " ++ r.account ++
        "\n"
  | _ => ""

/-- Produces the next block. -/
def Running.produce (r : Running) (time : Timestamp) : Except (Stop MintError) Unit × Running :=
  match r.producer.produce r.chain r.settings Outages.none time with
  | (.error e, producer, chain) => (.error e, { r with chain, producer })
  | (.ok o, producer, chain) =>
      (.ok (), { r with chain, producer, stdout := r.stdout ++ blockLine o })

/-- Produces a block at each of the given times, up to the first that fails. -/
def Running.run : Running → List Timestamp → Except (Stop MintError) Unit × Running
  | r, [] => (.ok (), r)
  | r, t :: ts =>
      match r.produce t with
      | (.error e, r) => (.error e, r)
      | (.ok (), r) => Running.run r ts

/-- The last words of a node. -/
def finish (stdout : String) : Except (Stop MintError) Unit → Exit
  | .ok () => done (stdout ++ gray "Node stopped" ++ "\n")
  | .error (.failed e) => failedWith (stdout ++ gray "Node stopped" ++ "\n") (report e)
  | .error .crashed => crashed stdout

end Mintage.Node
