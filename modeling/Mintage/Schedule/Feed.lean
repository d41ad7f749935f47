import Mintage.Data.Json
import Mintage.Net.Reply
import Mintage.Net.Url
import Mintage.Wire.Schedule

/-!
The feed that publishes the schedule: where to ask for it, how often, and what to make
of a reply.

* `FeedSettings.endpoint`: address and path with exactly one slash between.
* `readReply`: only a whole answer with a success status and a readable snapshot counts.
-/

namespace Mintage

/-! ### Settings -/

/-- Where the feed is and how to ask it. -/
structure FeedSettings where
  url : String
  path : String
  refreshIntervalSecs : UInt64
  requestTimeoutSecs : UInt64
  /-- Mints for addresses that begin otherwise are passed over. -/
  addressPrefix : String
  deriving DecidableEq

namespace FeedSettings

/-- The feed on the local host. -/
def default : FeedSettings :=
  ⟨"https://127.0.0.1:52884", "/gridspork/mint-storage", 15, 10, "unigrid"⟩

/-- The text that names the feed. -/
def endpoint (s : FeedSettings) : String :=
  let slash (c : Char) : Bool := c == '/'
  String.ofList ((s.url.toList.reverse.dropWhile slash).reverse
    ++ '/' :: s.path.toList.dropWhile slash)

/-- The locator of the feed, where the text is one. -/
def locator? (s : FeedSettings) : Option Net.Url :=
  Net.Url.read? s.endpoint.toList

/-- Seconds from one request to the next, at least one. -/
def refreshSecs (s : FeedSettings) : UInt64 :=
  max 1 s.refreshIntervalSecs

/-- Seconds to wait for an answer, at least one. -/
def timeoutSecs (s : FeedSettings) : UInt64 :=
  max 1 s.requestTimeoutSecs

end FeedSettings

/-! ### Replies -/

/-- Why the feed yields no snapshot. -/
inductive FeedError where
  /-- There was no whole answer. -/
  | unanswered
  | status (code : Nat)
  | unreadable
  /-- The feed's endpoint is no locator. -/
  | badEndpoint
  deriving DecidableEq

/-- The error in words. -/
def FeedError.message : FeedError → String
  | .unanswered => "HTTP request failed"
  | .status code => "HTTP error: " ++ toString code
  | .unreadable => "Failed to parse response"
  | .badEndpoint => "Invalid feed URL"

/-- The snapshot that a body holds. -/
def Snapshot.read? (body : Bytes) : Option Snapshot :=
  (Json.read? body).bind Snapshot.ofDatum?

/-- The snapshot of a reply, or what is wrong with it: first its status, then its
length, then its content. -/
def readReply : Net.Reply → Except FeedError Snapshot
  | .unreachable => .error .unanswered
  | .answer status body complete =>
      if ¬ Net.isSuccess status then .error (.status status)
      else if ¬ complete then .error .unanswered
      else
        match Snapshot.read? body with
        | some s => .ok s
        | none => .error .unreadable

end Mintage
