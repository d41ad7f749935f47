import Mintage.Account.Basic
import Mintage.Data.Packed
import Mintage.Emission.Params

/-!
The packed forms of the values that the ledger stores. The fields of a value follow one
another in the order of its type; a decimal is stored as its text.
-/

namespace Mintage

open Packed

instance : Packed Dec where
  pack d := pack d.text
  unpack? s := do
    let (t, r) ← (unpack? s : Option (String × Bytes))
    let d ← Dec.ofString? t
    return (d, r)

instance : Packed Params where
  pack p := pack p.mintDenom ++ pack p.subsidyHalvingInterval ++ pack p.goalBonded
    ++ pack p.blocksPerYear
  unpack? s := do
    let (denom, s) ← unpack? s
    let (interval, s) ← unpack? s
    let (goal, s) ← unpack? s
    let (blocks, s) ← unpack? s
    return (⟨denom, interval, goal, blocks⟩, s)

instance : Packed Minter where
  pack m := pack m.subsidyHalvingInterval
  unpack? s := do
    let (interval, s) ← unpack? s
    return (⟨interval⟩, s)

instance : Packed Address where
  pack a := pack a.encoded ++ pack a.bytes
  unpack? s := do
    let (encoded, s) ← unpack? s
    let (bytes, s) ← unpack? s
    return (⟨encoded, bytes⟩, s)

instance : Packed BaseAccount where
  pack b := pack b.address ++ pack b.pubKey ++ pack b.accountNumber ++ pack b.sequence
  unpack? s := do
    let (address, s) ← unpack? s
    let (key, s) ← unpack? s
    let (number, s) ← unpack? s
    let (sequence, s) ← unpack? s
    return (⟨address, key, number, sequence⟩, s)

instance : Packed Period where
  pack p := pack p.length ++ pack p.amount
  unpack? s := do
    let (length, s) ← unpack? s
    let (amount, s) ← unpack? s
    return (⟨length, amount⟩, s)

instance : Packed Account where
  pack
    | .plain base => packTag 0 ++ pack base
    | .delayed base locked endTime => packTag 1 ++ pack base ++ pack locked ++ pack endTime
    | .periodic base locked start endTime periods =>
        packTag 2 ++ pack base ++ pack locked ++ pack start ++ pack endTime ++ pack periods
  unpack? s := do
    let (tag, s) ← unpackTag? s
    match tag with
    | 0 =>
        let (base, s) ← unpack? s
        return (.plain base, s)
    | 1 =>
        let (base, s) ← unpack? s
        let (locked, s) ← unpack? s
        let (endTime, s) ← unpack? s
        return (.delayed base locked endTime, s)
    | 2 =>
        let (base, s) ← unpack? s
        let (locked, s) ← unpack? s
        let (start, s) ← unpack? s
        let (endTime, s) ← unpack? s
        let (periods, s) ← unpack? s
        return (.periodic base locked start endTime periods, s)
    | _ => none

instance : Packed MintRecord where
  pack r := pack r.blockHeight ++ pack r.account ++ pack r.amount ++ pack r.blockProvision
  unpack? s := do
    let (height, s) ← unpack? s
    let (account, s) ← unpack? s
    let (amount, s) ← unpack? s
    let (blockProvision, s) ← unpack? s
    return (⟨height, account, amount, blockProvision⟩, s)

end Mintage
