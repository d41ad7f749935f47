import Mintage.Emission.Params
import Mintage.Emission.Timestamp

/-!
The block subsidy. It starts at one token for each nominal minute, loses one hundredth
with every decay period, and is scaled by the time since the block before: a slow block
mints more and a fast one less.

* `decayedSubsidy_eq`: the decayed subsidy is a product of rounded steps. It ends at
  zero as soon as it is no longer a normal number.
-/

namespace Mintage

/-- Added to a height, so that heights go on from those of the chain before this one. -/
def heightOffset : Nat := 2500000

/-- The height, counted from the start of the chain before, at which the decay begins. -/
def decayStart : Nat := 100000

/-- How many heights of the decay are over at a height. -/
def decayDistance (height : UInt64) : Nat :=
  height.toNat + heightOffset - decayStart

/-- The number of completed decay periods at a height, at most the greatest 64-bit
number. -/
def decayPeriods (interval : Dec) (height : UInt64) : UInt64 :=
  match interval.quoTruncate? (decayDistance height) with
  | some periods => Word.clamp periods.toNat
  | none => 0

/-- One decay period on units of the least binary64: the product with 99 and the
quotient by 100, each rounded. -/
def decayUnits (u : Nat) : Nat :=
  roundUnits (roundUnits (u * 99) 1) 100

/-- What is left of `u` units after a number of periods; below the normal numbers it
counts as nothing. -/
def decayFrom (u : Nat) : Nat → Nat
  | 0 => u
  | n + 1 =>
      let next := decayUnits u
      if next < Binary64.minNormalUnits then 0 else decayFrom next n

/-- Two bits of `m <<< e` moved into `m`, where `m` has few. -/
def spread (m e : Nat) : Nat × Nat :=
  if m < 1 <<< 54 ∧ 2 ≤ e then (4 * m, e - 2) else (m, e)

/-- What is left of `m <<< e` units after a number of periods. The steps are taken on
`m` alone as long as it has enough bits to be rounded like the whole number. -/
def decayLeading (m e : Nat) : Nat → Nat
  | 0 => m <<< e
  | n + 1 =>
      let s := spread m e
      if s.1 < 1 <<< 54 then decayFrom (s.1 <<< s.2) (n + 1)
        else decayLeading (decayUnits s.1) s.2 n

/-- One token has so many more bits than are needed for a step. -/
def spareBits : Nat := 1020

/-- The subsidy of one token after a number of decay periods. -/
def decayedSubsidy (periods : UInt64) : Binary64 :=
  ⟨false, decayLeading (1 <<< 54) spareBits periods.toNat⟩

theorem spread_eq (m e : Nat) : (spread m e).1 <<< (spread m e).2 = m <<< e := by
  rw [Nat.shiftLeft_eq, Nat.shiftLeft_eq]
  rw [spread]
  split
  · next h =>
      obtain ⟨d, rfl⟩ : ∃ d, e = d + 2 := ⟨e - 2, by omega⟩
      rw [Nat.add_sub_cancel, Nat.pow_add]
      show 4 * m * 2 ^ d = m * (2 ^ d * 4)
      ac_rfl
  · rfl

/-- With 54 bits or more, a decay period is the same for all numbers that differ by
doubling. -/
theorem decayUnits_shiftLeft {m : Nat} (h : 1 <<< 54 ≤ m) (e : Nat) :
    decayUnits (m <<< e) = decayUnits m <<< e := by
  have h99 : 1 <<< 53 ≤ m * 99 / 1 := by omega
  have h100 : 1 <<< 53 ≤ roundUnits (m * 99) 1 / 100 := by
    have hlog : 60 ≤ (m * 99 / 1).log2 := (Nat.le_log2 (by omega)).2 (by omega)
    have := Nat.le_trans (one_shiftLeft_le hlog) (leadingBit_le_roundUnits h99)
    omega
  have hmul : m <<< e * 99 = (m * 99) <<< e := by
    rw [Nat.shiftLeft_eq, Nat.shiftLeft_eq, Nat.mul_right_comm]
  rw [decayUnits, hmul, roundUnits_shiftLeft h99, roundUnits_shiftLeft h100, decayUnits]

/-- A number of 54 bits or more stays normal through a decay period. -/
theorem minNormalUnits_le_decayUnits {m : Nat} (h : 1 <<< 54 ≤ m) :
    Binary64.minNormalUnits ≤ decayUnits m := by
  have h99 : 1 <<< 53 ≤ m * 99 / 1 := by omega
  have hlog : 60 ≤ (m * 99 / 1).log2 := (Nat.le_log2 (by omega)).2 (by omega)
  have hp := Nat.le_trans (one_shiftLeft_le hlog) (leadingBit_le_roundUnits h99)
  have h100 : 1 <<< 53 ≤ roundUnits (m * 99) 1 / 100 := by omega
  have hlog' : 52 ≤ (roundUnits (m * 99) 1 / 100).log2 := (Nat.le_log2 (by omega)).2 (by omega)
  exact Nat.le_trans (one_shiftLeft_le hlog') (leadingBit_le_roundUnits h100)

theorem decayLeading_eq (m e n : Nat) : decayLeading m e n = decayFrom (m <<< e) n := by
  induction n generalizing m e with
  | zero => rfl
  | succ n ih =>
      rw [← spread_eq m e, decayLeading]
      split
      · rfl
      · next h =>
          have hm : 1 <<< 54 ≤ (spread m e).1 := by omega
          have hnormal : ¬ decayUnits (spread m e).1 <<< (spread m e).2 < Binary64.minNormalUnits :=
            Nat.not_lt.2 (Nat.le_trans (minNormalUnits_le_decayUnits hm)
              (Nat.le_shiftLeft ..))
          rw [ih, decayFrom, decayUnits_shiftLeft hm, if_neg hnormal]

/-- The decayed subsidy is one token taken through the periods one by one. -/
theorem decayedSubsidy_eq (periods : UInt64) :
    decayedSubsidy periods = ⟨false, decayFrom Binary64.unitsPerOne periods.toNat⟩ := by
  have h : 54 + spareBits = Binary64.unitBits := rfl
  rw [decayedSubsidy, decayLeading_eq, ← Nat.shiftLeft_add, h, Binary64.unitsPerOne]

/-- The seconds between two block times, or a nominal minute where the clock did not
move forward. -/
def elapsedSeconds (current previous : Timestamp) : Binary64 :=
  if current.notAfter previous then Binary64.ofInt 60
  else (Binary64.ofInt (current.millisSince previous)).overNat 1000

/-- The amount minted for a block, in base units. -/
def provisionAmount (interval : Dec) (height : UInt64) (current previous : Timestamp) : UInt64 :=
  let subsidy := decayedSubsidy (decayPeriods interval height)
  let scaled := ((subsidy.mul (elapsedSeconds current previous)).overNat 60).clampNegative
  (scaled.timesNat unitsPerToken).toUInt64

/-- The coin minted for a block, with the interval of the parameters. -/
def provision (params : Params) (height : UInt64) (current previous : Timestamp) : Coin :=
  ⟨params.mintDenom, provisionAmount params.subsidyHalvingInterval height current previous⟩

/-- The coin minted for a block, with the minter's own interval. -/
def Minter.blockProvision (m : Minter) (params : Params) (height : UInt64)
    (current previous : Timestamp) : Coin :=
  ⟨params.mintDenom, provisionAmount m.subsidyHalvingInterval height current previous⟩

end Mintage
