import Mintage.Node.Api
import Mintage.Program.Query
import Mintage.Proofs.Wire.Types
import Mintage.Schedule.Feed

/-!
What one side writes, the other reads.

* `Api.Answer.ReadAs`, `Api.readAs_found`: an answer that carries a value is read as that
  value.
* `Api.AnswersRead`, `Api.answersRead`: so is every answer of a node about its chain.
* `json_undone`: reading undoes writing for every type with a wire form, between a node and
  its query tool, and for the feed under either name of its time.
-/

namespace Mintage

namespace Api

/-- The query tool reads a value off an answer. -/
def Answer.ReadAs {α : Type} (a : Answer) (read : Datum → Option α) (value : α) : Prop :=
  ∃ d, a.body = .json d ∧
    QueryTool.readReply read (.answer a.status (Json.write d) true) = .ok value

variable {α : Type} {write : α → Datum} {read : Datum → Option α}

/-- **A value that is found** is read off the answer. -/
theorem readAs_found (h : Faithful write read) (a : α) : (found (write a)).ReadAs read a := by
  refine ⟨write a, rfl, ?_⟩
  have hread : QueryTool.readBody? read (Json.write (write a)) = some a := h.readBack a
  simp only [QueryTool.readReply, found, hread]
  rfl

lemma ofQuery_of_ok {β : Type} {L : Ledger} {m : MintM Ledger β} {b : β}
    (hb : (m.runOn Outages.none L).1 = .ok b) (answer : β → Answer) :
    ofQuery L m answer = answer b := by
  rw [ofQuery, hb]

/-- What the query tool reads off the answers about a chain: where the chain stands, its
parameters, the halving interval, and the mints that were carried out. -/
structure AnswersRead (c : Chain) : Prop where
  status : ∀ {s}, statusOf c = .ok s → (answer c .status).ReadAs NodeStatus.ofDatum? s
  params : ∀ {p}, (MintM.storedParams.runOn Outages.none c.ledger).1 = .ok p →
    (answer c .params).ReadAs Params.ofDatum? p
  halvingInterval : ∀ {d}, (MintM.halvingInterval.runOn Outages.none c.ledger).1 = .ok d →
    (answer c .halvingInterval).ReadAs intervalOfDatum? d
  mints : ∀ {rs}, (MintM.mintRecords.runOn Outages.none c.ledger).1 = .ok rs →
    (answer c .mints).ReadAs (Datum.asList? MintRecord.ofDatum?) rs
  mint : ∀ {segment height r}, heightOf? segment = some height →
    ((MintM.mintRecord? height).runOn Outages.none c.ledger).1 = .ok (some r) →
      (answer c (.mint segment)).ReadAs MintRecord.ofDatum? r

/-- **What a node answers**, the query tool reads. -/
theorem answersRead (c : Chain) : AnswersRead c where
  status hs := by
    rw [answer, hs]
    exact readAs_found NodeStatus.faithful _
  params hp := by
    rw [answer, ofQuery_of_ok hp]
    exact readAs_found Params.faithful _
  halvingInterval hd := by
    rw [answer, ofQuery_of_ok hd]
    exact readAs_found interval_faithful _
  mints hrs := by
    rw [answer, ofQuery_of_ok hrs]
    exact readAs_found MintRecord.faithful.list _
  mint hheight hr := by
    rw [answer, hheight]
    dsimp only
    rw [ofQuery_of_ok hr]
    exact readAs_found MintRecord.faithful _

end Api

/-- **Reading undoes writing** in JSON, for every type with a wire form, whatever its texts
hold and however large its numbers are. So what a node answers is what its query tool reads.
A payload of the feed reads the same whichever of its two names the time goes by. -/
theorem json_undone :
    ReadBack Snapshot.toDatum Snapshot.ofDatum? ∧
    ReadBack Coins.toDatum Coins.ofDatum? ∧
    ReadBack Params.toDatum Params.ofDatum? ∧
    ReadBack Minter.toDatum Minter.ofDatum? ∧
    ReadBack Genesis.toDatum Genesis.ofDatum? ∧
    ReadBack MintEvent.toDatum MintEvent.ofDatum? ∧
    ReadBack Account.toDatum Account.ofDatum? ∧
    ReadBack MintRecord.toDatum MintRecord.ofDatum? ∧
    ReadBack Coin.toDatum Coin.ofDatum? ∧
    ReadBack Mint.toDatum Mint.ofDatum? ∧
    (∀ c, Api.AnswersRead c) ∧
    (∀ s : Snapshot, Snapshot.read? (Json.write (Snapshot.feedNames s.toDatum)) = some s) ∧
    ∀ body feedBody, Json.read? feedBody = (Json.read? body).map Snapshot.feedNames →
      Snapshot.read? feedBody = Snapshot.read? body := by
  refine ⟨Snapshot.faithful.readBack, Coins.faithful.readBack, Params.faithful.readBack,
    Minter.faithful.readBack, Genesis.faithful.readBack, MintEvent.faithful.readBack,
    Account.faithful.readBack, MintRecord.faithful.readBack, Coin.faithful.readBack,
    Mint.faithful.readBack, Api.answersRead, Snapshot.read?_feedNames, fun body feedBody h => ?_⟩
  rw [Snapshot.read?, h, Snapshot.read?]
  cases Json.read? body with
  | none => rfl
  | some d => exact Snapshot.ofDatum?_feedNames d

end Mintage
