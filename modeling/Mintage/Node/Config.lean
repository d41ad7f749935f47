import Mintage.Block.Begin
import Mintage.Net.Socket
import Mintage.Schedule.Feed

/-!
The configuration of a node: the feed, the chain, the interface for queries, and
parameters that replace the default ones.

* `Overrides.apply`: the parameters a node starts with, which must be usable.
* `expandHome`: every `$HOME` in a path stands for the home directory.
-/

namespace Mintage

/-! ### Sections -/

/-- How the node keeps and makes its chain. -/
structure ChainSettings where
  /-- The directory of the ledger. -/
  dataDir : String
  blockIntervalSecs : UInt64
  feeCollector : String
  bondedRatio : Dec
  deriving DecidableEq

/-- The settings of a chain that configures nothing. -/
def ChainSettings.default : ChainSettings :=
  ⟨"$HOME/.ugd/data", 5, "fee_collector", Dec.withPrecision 67 2⟩

/-- What a block needs to know of the settings. -/
def ChainSettings.forBlocks (s : ChainSettings) : Settings :=
  ⟨s.feeCollector, s.bondedRatio⟩

/-- Whether and where the node answers queries. -/
structure ApiSettings where
  enabled : Bool
  listen : Net.SocketAddress
  deriving DecidableEq

/-- The interface listens to the local host unless told otherwise. -/
def ApiSettings.default : ApiSettings :=
  ⟨true, .v4 ⟨0x7F000001⟩ 52885⟩

/-- Parameters that replace the default ones. -/
structure Overrides where
  mintDenom : Option String
  subsidyHalvingInterval : Option Dec
  goalBonded : Option Dec
  blocksPerYear : Option UInt64
  deriving DecidableEq

namespace Overrides

/-- Nothing is overridden. -/
def none : Overrides := ⟨.none, .none, .none, .none⟩

/-- Whether nothing is overridden. -/
def isEmpty (o : Overrides) : Bool :=
  decide (o = none)

/-- The parameters with some replaced. -/
def applied (o : Overrides) (base : Params) : Params :=
  ⟨o.mintDenom.getD base.mintDenom, o.subsidyHalvingInterval.getD base.subsidyHalvingInterval,
    o.goalBonded.getD base.goalBonded, o.blocksPerYear.getD base.blocksPerYear⟩

/-- The parameters with some replaced, which must be usable. -/
def apply (o : Overrides) (base : Params) : Except ParameterFault Params :=
  (o.applied base).validate.map fun _ => o.applied base

end Overrides

/-! ### The configuration -/

/-- The configuration of a node. -/
structure Config where
  feed : FeedSettings
  chain : ChainSettings
  api : ApiSettings
  params : Overrides
  deriving DecidableEq

namespace Config

/-- The configuration of a node without a file. -/
def default : Config := ⟨.default, .default, .default, .none⟩

/-- The parameters that the node starts with. -/
def startParams (c : Config) : Except ParameterFault Params :=
  c.params.apply Params.default

end Config

/-- Why a node has no configuration to start with. -/
inductive ConfigError where
  /-- The file does not read as text. -/
  | unreadable
  /-- The text is no configuration. -/
  | malformed
  | invalidParams (fault : ParameterFault)
  deriving DecidableEq

/-- The error in words. -/
def ConfigError.message : ConfigError → String
  | .unreadable => "Failed to read config"
  | .malformed => "Failed to parse config"
  | .invalidParams f => "Invalid params: " ++ (ValueError.invalidParameter (.cause f)).message

/-! ### Paths -/

/-- The characters of a path with every `$HOME` replaced. -/
def expandHomeChars (home : List Char) : List Char → List Char
  | '$' :: 'H' :: 'O' :: 'M' :: 'E' :: r => home ++ expandHomeChars home r
  | c :: r => c :: expandHomeChars home r
  | [] => []

/-- A path with every `$HOME` replaced. -/
def expandHome (home path : String) : String :=
  String.ofList (expandHomeChars home.toList path.toList)

/-- The directory of the ledger. -/
def ChainSettings.directory (s : ChainSettings) (home : String) : String :=
  expandHome home s.dataDir

end Mintage
