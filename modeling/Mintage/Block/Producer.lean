import Mintage.Block.Begin

/-!
The producer of blocks: it goes on from the last block noted in the ledger, one height
at a time, and notes each block it finishes. The ledger keeps the time of the last block
in whole seconds; the producer itself remembers it exactly.
-/

namespace Mintage

/-- What a producer remembers: the last block it finished or found. -/
structure Producer where
  last : Option (UInt64 × Timestamp)
  deriving DecidableEq

namespace Producer

/-- The height of the next block, where there is one. -/
def nextHeight? (p : Producer) : Option UInt64 :=
  match p.last with
  | none => some 1
  | some (h, _) => Word.ofNat? (h.toNat + 1)

/-- The last block noted in the ledger, with a time that lies in the calendar. -/
def storedBlock {σ : Type} : MintM σ (Option (UInt64 × Timestamp)) := do
  match ← StoreM.getLastBlock .store with
  | none => return none
  | some (h, secs) =>
      match Timestamp.ofUnix? secs.toInt 0 with
      | some t => return some (h, t)
      | none => StoreM.fail (.store (.serialization (.cause (.badBlockTime secs))))

/-- Goes on from the last block noted in the ledger; its height counts as finished. -/
def resume (c : Chain) (outages : Outages) : Except (Stop MintError) Producer × Chain :=
  match c.run outages storedBlock with
  | (.error e, c) => (.error e, c)
  | (.ok none, c) => (.ok ⟨none⟩, c)
  | (.ok (some (h, t)), c) => (.ok ⟨some (h, t)⟩, { c with cache := c.cache.markProcessed h })

/-- Produces the next block at a time, and notes it once it is finished. -/
def produce (p : Producer) (c : Chain) (s : Settings) (outages : Outages) (time : Timestamp) :
    Except (Stop MintError) BlockOutcome × Producer × Chain :=
  match p.nextHeight? with
  | none => (.error .crashed, p, c)
  | some height =>
      match c.beginBlock s outages ⟨height, time, p.last.map (·.2)⟩ with
      | (.error e, c) => (.error e, p, c)
      | (.ok outcome, c) =>
          match c.run outages (StoreM.setLastBlock .store height (Int64.ofInt time.secs)) with
          | (.error e, c) => (.error e, p, c)
          | (.ok (), c) => (.ok outcome, ⟨some (height, time)⟩, c)

end Producer

end Mintage
