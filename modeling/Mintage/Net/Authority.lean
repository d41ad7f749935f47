import Mintage.Net.Host

/-!
The scheme of a locator, which decides how the rest is read, and the authority: whom to
connect to.

* `Authority.read?`: name and password before the last at sign, then a host, then
  perhaps a colon and a number.
-/

namespace Mintage.Net

/-! ### Schemes -/

/-- How a scheme's locators are read. -/
inductive SchemeKind where
  | file
  /-- One that needs a host. -/
  | network
  | other
  deriving DecidableEq

namespace SchemeKind

/-- The kind that a scheme belongs to. -/
def ofScheme (scheme : List Char) : SchemeKind :=
  if scheme = "file".toList then .file
  else if String.ofList scheme ∈ ["http", "https", "ws", "wss", "ftp"] then .network
  else .other

/-- The well-known schemes are read by stricter rules. -/
def isSpecial (k : SchemeKind) : Bool :=
  k != .other

/-- Whether a character separates the parts before a query; the well-known schemes take
a backslash for a slash. -/
def isSlash (k : SchemeKind) (c : Char) : Bool :=
  c == '/' || (k.isSpecial && c == '\\')

end SchemeKind

/-- The `portNumber` of a scheme's locators that show none. -/
def defaultPortNumber? (scheme : List Char) : Option UInt16 :=
  match String.ofList scheme with
  | "http" | "ws" => some 80
  | "https" | "wss" => some 443
  | "ftp" => some 21
  | _ => none

/-! ### Authorities -/

/-- Whom to connect to. -/
structure Authority where
  username : List Char
  password : List Char
  host : Host
  /-- The number behind the host, where it is not the scheme's own. -/
  portNumber : Option UInt16
  deriving DecidableEq

namespace Authority

/-- The authority that says nothing. -/
def empty : Authority := ⟨[], [], .name [], none⟩

/-- A name and a password with an at sign behind them, where there are any. -/
def userinfo (a : Authority) : List Char :=
  if a.username.isEmpty ∧ a.password.isEmpty then []
  else a.username ++ (if a.password.isEmpty then [] else ':' :: a.password) ++ ['@']

/-- The port behind a colon, where one is written. -/
def portChars (a : Authority) : List Char :=
  match a.portNumber with
  | some p => ':' :: Text.digits p.toNat
  | none => []

/-- The authority as it stands in a URL. -/
def chars (a : Authority) : List Char :=
  a.userinfo ++ a.host.chars ++ a.portChars

/-! ### Reading -/

/-- The text before and after the last occurrence of `c`. -/
def splitLast? (c : Char) (s : List Char) : Option (List Char × List Char) :=
  (Text.splitAt? c s.reverse).map fun p => (p.2.reverse, p.1.reverse)

/-- The host's text and what follows it: a colon inside brackets belongs to the host. -/
def cutHost (inside : Bool) : List Char → List Char × List Char
  | [] => ([], [])
  | c :: r =>
      if c = ':' ∧ ¬ inside then ([], c :: r)
      else
        let (h, t) := cutHost (if c = '[' then true else if c = ']' then false else inside) r
        (c :: h, t)

/-- Reads what follows a host: nothing, or a colon and perhaps a number. -/
def readPortNumber? (scheme : List Char) : List Char → Option (Option UInt16)
  | [] => some none
  | [':'] => some none
  | ':' :: r => do
      let n ← Text.readNat? r
      if n < UInt16.size then
        let p := UInt16.ofNat n
        return if defaultPortNumber? scheme = some p then none else some p
      else none
  | _ => none

/-- Reads name, password, host and `portNumber`. An empty host may not have any of the
others beside it. -/
def read? (scheme s : List Char) : Option Authority := do
  let split := splitLast? '@' s
  let (user, rest) := split.getD ([], s)
  let (username, password) := (Text.splitAt? ':' user).getD (user, [])
  let (hostText, portText) := cutHost false rest
  let special := (SchemeKind.ofScheme scheme).isSpecial
  let host ← if special then Host.readDomain? hostText else Host.readPlain? hostText
  let portNumber ← readPortNumber? scheme portText
  if host.isEmpty ∧ (special ∨ ¬ portText.isEmpty ∨ split.isSome) then none
  else return ⟨Percent.encode Percent.userinfo username, Percent.encode Percent.userinfo password,
    host, portNumber⟩

end Authority

end Mintage.Net
