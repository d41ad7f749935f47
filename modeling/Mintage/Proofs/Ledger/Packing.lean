import Mintage.Ledger.Packing
import Mintage.Proofs.Data.Packed
import Mintage.Proofs.Number.Dec

/-!
The values that the ledger stores read back from their packed forms: decimals,
parameters, the minter, accounts of every kind and records of mints.
-/

namespace Mintage

open Packed

instance : LawfulPacked Dec where
  unpack_pack d r := by
    show (unpack? (pack d.text ++ r)).bind _ = _
    simp [Dec.ofString?_text]

instance : LawfulPacked Params where
  unpack_pack p r := by
    show (unpack? (pack p.mintDenom ++ pack p.subsidyHalvingInterval ++ pack p.goalBonded
        ++ pack p.blocksPerYear ++ r)).bind _ = _
    simp

instance : LawfulPacked Minter where
  unpack_pack m r := by
    show (unpack? (pack m.subsidyHalvingInterval ++ r)).bind _ = _
    simp

instance : LawfulPacked Address where
  unpack_pack a r := by
    show (unpack? (pack a.encoded ++ pack a.bytes ++ r)).bind _ = _
    simp

instance : LawfulPacked BaseAccount where
  unpack_pack b r := by
    show (unpack? (pack b.address ++ pack b.pubKey ++ pack b.accountNumber ++ pack b.sequence
        ++ r)).bind _ = _
    simp

instance : LawfulPacked Period where
  unpack_pack p r := by
    show (unpack? (pack p.length ++ pack p.amount ++ r)).bind _ = _
    simp

instance : LawfulPacked Account where
  unpack_pack a r := by
    cases a with
    | plain base =>
        show (unpackTag? (packTag 0 ++ pack base ++ r)).bind _ = _
        simp [unpackTag?_packTag]
    | delayed base locked endTime =>
        show (unpackTag? (packTag 1 ++ pack base ++ pack locked ++ pack endTime ++ r)).bind _ = _
        simp [unpackTag?_packTag]
    | periodic base locked start endTime periods =>
        show (unpackTag? (packTag 2 ++ pack base ++ pack locked ++ pack start ++ pack endTime
            ++ pack periods ++ r)).bind _ = _
        simp [unpackTag?_packTag]

instance : LawfulPacked MintRecord where
  unpack_pack m r := by
    show (unpack? (pack m.blockHeight ++ pack m.account ++ pack m.amount ++ pack m.blockProvision
        ++ r)).bind _ = _
    simp

end Mintage
