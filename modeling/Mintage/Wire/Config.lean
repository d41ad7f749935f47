import Mintage.Data.Toml
import Mintage.Node.Config
import Mintage.Wire.Money

/-!
The wire form of a node's configuration, and its file. Every section and every field may
be left out.

* `Config.read`: a configuration from the TOML text of a file; without a file it is the
  default one.
-/

namespace Mintage

open Datum

namespace FeedSettings

/-- Where the feed is found, and how often it is asked. -/
def toDatum (s : FeedSettings) : Datum :=
  object [("url", ofString s.url), ("path", ofString s.path),
    ("refresh_interval_secs", ofUInt64 s.refreshIntervalSecs),
      ("request_timeout_secs", ofUInt64 s.requestTimeoutSecs),
    ("address_prefix", ofString s.addressPrefix)]

/-- Reads the settings of the feed. -/
def ofDatum? (exact : Bool) (d : Datum) : Option FeedSettings := do
  let s ← d.slots? exact
    [["url"], ["path"], ["refresh_interval_secs"], ["request_timeout_secs"], ["address_prefix"]]
  let f := FeedSettings.default
  return ⟨← s.withDefault 0 asString? f.url, ← s.withDefault 1 asString? f.path,
    ← s.withDefault 2 asUInt64? f.refreshIntervalSecs,
      ← s.withDefault 3 asUInt64? f.requestTimeoutSecs,
    ← s.withDefault 4 asString? f.addressPrefix⟩

end FeedSettings

namespace ChainSettings

/-- Where and how a chain runs. -/
def toDatum (s : ChainSettings) : Datum :=
  object [("data_dir", ofString s.dataDir), ("block_interval_secs", ofUInt64 s.blockIntervalSecs),
    ("fee_collector", ofString s.feeCollector), ("bonded_ratio", s.bondedRatio.toDatum)]

/-- Reads the settings of a chain. -/
def ofDatum? (exact : Bool) (d : Datum) : Option ChainSettings := do
  let s ← d.slots? exact [["data_dir"], ["block_interval_secs"], ["fee_collector"],
    ["bonded_ratio"]]
  let c := ChainSettings.default
  return ⟨← s.withDefault 0 asString? c.dataDir, ← s.withDefault 1 asUInt64? c.blockIntervalSecs,
    ← s.withDefault 2 asString? c.feeCollector, ← s.withDefault 3 Dec.ofDatum? c.bondedRatio⟩

end ChainSettings

/-- A socket address is written as text. -/
def Net.SocketAddress.ofDatum? (d : Datum) : Option Net.SocketAddress :=
  d.asString?.bind fun s => Net.SocketAddress.read? s.toList

namespace ApiSettings

/-- Whether the interface is enabled, and where it listens. -/
def toDatum (s : ApiSettings) : Datum :=
  object [("enabled", .bool s.enabled), ("listen", ofString s.listen.text)]

/-- Reads the settings of the interface. -/
def ofDatum? (exact : Bool) (d : Datum) : Option ApiSettings := do
  let s ← d.slots? exact [["enabled"], ["listen"]]
  let a := ApiSettings.default
  return ⟨← s.withDefault 0 asBool? a.enabled,
    ← s.withDefault 1 Net.SocketAddress.ofDatum? a.listen⟩

end ApiSettings

namespace Overrides

/-- The parameters that are overridden; the others are null. -/
def toDatum (o : Overrides) : Datum :=
  object [("mint_denom", ofOption ofString o.mintDenom),
    ("subsidy_halving_interval", ofOption Dec.toDatum o.subsidyHalvingInterval),
    ("goal_bonded", ofOption Dec.toDatum o.goalBonded),
      ("blocks_per_year", ofOption ofUInt64 o.blocksPerYear)]

/-- Reads overrides; one that is null is none. -/
def ofDatum? (exact : Bool) (d : Datum) : Option Overrides := do
  let s ← d.slots? exact [["mint_denom"], ["subsidy_halving_interval"], ["goal_bonded"],
    ["blocks_per_year"]]
  return ⟨← s.withDefault 0 (asOption? asString?) .none,
    ← s.withDefault 1 (asOption? Dec.ofDatum?) .none,
    ← s.withDefault 2 (asOption? Dec.ofDatum?) .none, ← s.withDefault 3 (asOption? asUInt64?) .none⟩

end Overrides

namespace Config

/-- The configuration, section by section. -/
def toDatum (c : Config) : Datum :=
  object [("hedgehog", c.feed.toDatum), ("chain", c.chain.toDatum), ("api", c.api.toDatum),
    ("params", c.params.toDatum)]

/-- Reads a configuration. Where `exact` is set, a section written as a list may not be
too long. -/
def ofDatum? (exact : Bool) (d : Datum) : Option Config := do
  let s ← d.slots? exact [["hedgehog"], ["chain"], ["api"], ["params"]]
  return ⟨← s.withDefault 0 (FeedSettings.ofDatum? exact) .default,
    ← s.withDefault 1 (ChainSettings.ofDatum? exact) .default,
      ← s.withDefault 2 (ApiSettings.ofDatum? exact) .default,
    ← s.withDefault 3 (Overrides.ofDatum? exact) .none⟩

/-- The configuration that a text describes. -/
def ofText (text : String) : Except ConfigError Config :=
  match (Toml.read? text).bind (ofDatum? false) with
  | some c => .ok c
  | none => .error .malformed

end Config

/-! ### Files -/

/-- What is found under a path. -/
inductive FileContent where
  | missing
  | directory
  | bytes (b : Bytes)
  deriving DecidableEq

/-- The configuration in a file. -/
def Config.read : FileContent → Except ConfigError Config
  | .missing => .ok .default
  | .directory => .error .unreadable
  | .bytes b =>
      match Text.ofUtf8? b with
      | some t => ofText t
      | none => .error .unreadable

end Mintage
