import Mintage.Net.Percent
import Mintage.Node.Metrics
import Mintage.Text.Pieces
import Mintage.Wire.Query

/-!
The interface for queries: which paths there are, and what each one answers about a
chain. A query changes nothing.

* `Route.ofPath?`: the paths.
* `respond`: the answer to a request. Any other method than GET and HEAD is refused.
-/

namespace Mintage.Api

/-! ### Requests -/

/-- What can be asked for. -/
inductive Route where
  | status
  | params
  | halvingInterval
  | mints
  /-- The mint at a height, given as it stands in the path. -/
  | mint (segment : String)
  | metrics
  deriving DecidableEq

/-- The path of a request's target, without its query. -/
def pathOf (target : String) : String :=
  String.ofList (target.toList.takeWhile fun c => c ≠ '?' ∧ c ≠ '#')

/-- What a path asks for. -/
def Route.ofPath? (path : String) : Option Route :=
  match path with
  | "/status" => some .status
  | "/params" => some .params
  | "/subsidy-halving-interval" => some .halvingInterval
  | "/mints" => some .mints
  | "/metrics" => some .metrics
  | _ =>
      match Text.pieces '/' path.toList with
      | [[], head, segment] =>
          if head = "mints".toList ∧ ¬ segment.isEmpty
            then some (.mint (String.ofList segment)) else none
      | _ => none

/-! ### Answers -/

/-- What an answer carries. -/
inductive Body where
  | empty
  | json (d : Datum)
  /-- Lines of text of a given media type. -/
  | lines (mediaType : String) (ls : List String)

/-- An answer: its status code and what it carries. -/
structure Answer where
  status : Nat
  body : Body

/-- The media type of the counters. -/
def metricsType : String := "text/plain; version=0.0.4"

/-- The answer to a query that succeeds. -/
def found (d : Datum) : Answer := ⟨200, .json d⟩

/-- A query that fails inside the node. -/
def internal (message : String) : Answer :=
  ⟨500, .json (errorToDatum "internal_error" message)⟩

/-- The answer for a height at which no mint was carried out. -/
def noRecord (height : UInt64) : Answer :=
  ⟨404, .json (errorToDatum "mint_record_not_found"
    ("No mint record at height " ++ toString height.toNat))⟩

/-- The answer of a query on a ledger. -/
def ofQuery {α : Type} (L : Ledger) (m : MintM Ledger α) (answer : α → Answer) : Answer :=
  match (m.runOn Outages.none L).1 with
  | .ok a => answer a
  | .error (.failed e) => internal e.message
  | .error .crashed => ⟨500, .empty⟩

/-- Where a chain stands, or why that cannot be told. -/
def statusOf (c : Chain) : Except StateError NodeStatus := do
  let last ← c.ledger.lastBlock?
  let supply ← c.ledger.supply
  return ⟨last.map (·.1), last.map (·.2), supply, c.cache.heights⟩

/-- The height that a segment of a path denotes, once its codes are undone. -/
def heightOf? (segment : String) : Option UInt64 :=
  (Net.Percent.decodeText? segment).bind fun s => Text.readUInt64? s.toList

/-- What a chain answers. -/
def answer (c : Chain) : Route → Answer
  | .status =>
      match statusOf c with
      | .ok s => found s.toDatum
      | .error e => internal e.message
  | .params => ofQuery c.ledger MintM.storedParams fun p => found p.toDatum
  | .halvingInterval => ofQuery c.ledger MintM.halvingInterval fun d => found (intervalToDatum d)
  | .mints => ofQuery c.ledger MintM.mintRecords fun rs => found (.list (rs.map MintRecord.toDatum))
  | .mint segment =>
      match heightOf? segment with
      | none => ⟨400, .empty⟩
      | some h =>
          ofQuery c.ledger (MintM.mintRecord? h) fun r =>
            match r with
            | some r => found r.toDatum
            | none => noRecord h
  | .metrics => ⟨200, .lines metricsType c.metrics.lines⟩

/-- The answer to a request. -/
def respond (c : Chain) (method target : String) : Answer :=
  match Route.ofPath? (pathOf target) with
  | none => ⟨404, .empty⟩
  | some r =>
      if method = "GET" then answer c r
      else if method = "HEAD" then { answer c r with body := .empty }
      else ⟨405, .empty⟩

end Mintage.Api
