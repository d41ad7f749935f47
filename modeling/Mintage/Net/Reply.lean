import Mintage.Text.Utf8

/-!
What comes of a request: an answer, whole or cut short, or none at all.
-/

namespace Mintage.Net

/-- What comes of a request. -/
inductive Reply where
  /-- Nobody answers. -/
  | unreachable
  /-- An answer; its body may end early. -/
  | answer (status : Nat) (body : Bytes) (complete : Bool)
  deriving DecidableEq

/-- The statuses that say that a request was carried out. -/
def isSuccess (status : Nat) : Bool :=
  200 ≤ status && status < 300

/-- The reason that goes with a status, where it has one. -/
def reason? : Nat → Option String
  | 200 => some "OK"
  | 400 => some "Bad Request"
  | 401 => some "Unauthorized"
  | 403 => some "Forbidden"
  | 404 => some "Not Found"
  | 405 => some "Method Not Allowed"
  | 408 => some "Request Timeout"
  | 414 => some "URI Too Long"
  | 429 => some "Too Many Requests"
  | 500 => some "Internal Server Error"
  | 501 => some "Not Implemented"
  | 502 => some "Bad Gateway"
  | 503 => some "Service Unavailable"
  | 504 => some "Gateway Timeout"
  | _ => none

/-- A status and its reason. -/
def statusText (status : Nat) : String :=
  toString status ++ " " ++ (reason? status).getD "<unknown status code>"

end Mintage.Net
