import Mintage.Block.Begin
import Mintage.Number.Shortest

/-!
The counters of a node as text: for each one its purpose, its type and its value, in the
order of the names.
-/

namespace Mintage.Metrics

/-- How a number changes: it only grows, or it is set. -/
inductive Kind where
  | counter
  | gauge
  deriving DecidableEq

/-- The kind by its name in the exposition format. -/
def Kind.name : Kind → String
  | counter => "counter"
  | gauge => "gauge"

/-- One number with its name and its purpose. -/
structure Series where
  name : String
  help : String
  kind : Kind
  value : Nat

/-- The lines of a number. Its value is shown as the nearest binary64. -/
def Series.lines (s : Series) : List String :=
  ["# HELP " ++ s.name ++ " " ++ s.help, "# TYPE " ++ s.name ++ " " ++ s.kind.name,
    s.name ++ " " ++ Binary64.wholeText s.value]

/-- All numbers in the order of their names. -/
def series (m : Metrics) : List Series :=
  [⟨"ugdmint_external_mint_failures_total",
    "Hedgehog mints dropped because they could not be applied", .counter,
      m.externalMintFailures⟩,
    ⟨"ugdmint_external_mints_total", "Hedgehog mints applied", .counter, m.externalMints⟩,
    ⟨"ugdmint_feed_cache_size", "Pending hedgehog mints held in the cache", .gauge, m.cacheSize⟩,
    ⟨"ugdmint_feed_entries_skipped_total",
      "Hedgehog feed entries that were malformed, foreign or stale", .counter, m.entriesSkipped⟩,
    ⟨"ugdmint_feed_refresh_failures_total",
      "Hedgehog feed refreshes that failed to fetch or decode", .counter, m.refreshFailures⟩,
    ⟨"ugdmint_feed_refresh_total", "Hedgehog feed refresh attempts", .counter, m.refreshes⟩,
    ⟨"ugdmint_minted_tokens", "Base subsidy minted in the last block, in base units", .gauge,
      m.mintedTokens⟩]

/-- The lines of all numbers. -/
def lines (m : Metrics) : List String :=
  m.series.flatMap Series.lines

end Mintage.Metrics
