import Mintage.Block.Begin
import Mintage.Data.Datum

/-!
The wire forms of money, parameters and blocks: how their values are written as
structured data and read back. Decimals are texts, coins a record from denominations to
amounts, and every other type a record of its fields.
-/

namespace Mintage

open Datum

namespace Dec

/-- A decimal as its text. -/
def toDatum (d : Dec) : Datum := ofString d.text

/-- Reads a decimal, which has to be a text. -/
def ofDatum? (d : Datum) : Option Dec :=
  d.asString?.bind Dec.ofString?

end Dec

namespace Coin

/-- A coin: its denomination and its amount. -/
def toDatum (c : Coin) : Datum :=
  object [("denom", ofString c.denom), ("amount", ofUInt64 c.amount)]

/-- Reads a coin. -/
def ofDatum? (d : Datum) : Option Coin := do
  let s ← d.slots? true [["denom"], ["amount"]]
  return ⟨← s.required 0 asString?, ← s.required 1 asUInt64?⟩

end Coin

namespace Coins

/-- A set of coins as the amounts under the names of their denominations. -/
def toDatum (c : Coins) : Datum := ofMap ofUInt64 c

/-- Reads a set of coins; amounts of zero stay in it. -/
def ofDatum? (d : Datum) : Option Coins := d.asMap? asUInt64?

end Coins

namespace Params

/-- The parameters, whatever they are. -/
def toDatum (p : Params) : Datum :=
  object [("mint_denom", ofString p.mintDenom),
    ("subsidy_halving_interval", p.subsidyHalvingInterval.toDatum),
    ("goal_bonded", p.goalBonded.toDatum), ("blocks_per_year", ofUInt64 p.blocksPerYear)]

/-- Reads parameters, unchecked. -/
def ofDatum? (d : Datum) : Option Params := do
  let s ← d.slots? true [["mint_denom"], ["subsidy_halving_interval"], ["goal_bonded"],
    ["blocks_per_year"]]
  return ⟨← s.required 0 asString?, ← s.required 1 Dec.ofDatum?, ← s.required 2 Dec.ofDatum?,
    ← s.required 3 asUInt64?⟩

end Params

namespace Minter

/-- The minter. -/
def toDatum (m : Minter) : Datum :=
  object [("subsidy_halving_interval", m.subsidyHalvingInterval.toDatum)]

/-- Reads a minter, unchecked. -/
def ofDatum? (d : Datum) : Option Minter := do
  let s ← d.slots? true [["subsidy_halving_interval"]]
  return ⟨← s.required 0 Dec.ofDatum?⟩

end Minter

namespace Genesis

/-- A first state: the minter and the parameters. -/
def toDatum (g : Genesis) : Datum :=
  object [("minter", g.minter.toDatum), ("params", g.params.toDatum)]

/-- Reads a first state, unchecked. -/
def ofDatum? (d : Datum) : Option Genesis := do
  let s ← d.slots? true [["minter"], ["params"]]
  return ⟨← s.required 0 Minter.ofDatum?, ← s.required 1 Params.ofDatum?⟩

end Genesis

namespace MintEvent

/-- What a block reports about its subsidy. -/
def toDatum (e : MintEvent) : Datum :=
  object [("bonded_ratio", e.bondedRatio.toDatum),
    ("subsidy_halving_interval", e.subsidyHalvingInterval.toDatum), ("amount", ofUInt64 e.amount)]

/-- Reads what a block reported about its subsidy. -/
def ofDatum? (d : Datum) : Option MintEvent := do
  let s ← d.slots? true [["bonded_ratio"], ["subsidy_halving_interval"], ["amount"]]
  return ⟨← s.required 0 Dec.ofDatum?, ← s.required 1 Dec.ofDatum?, ← s.required 2 asUInt64?⟩

end MintEvent

end Mintage
