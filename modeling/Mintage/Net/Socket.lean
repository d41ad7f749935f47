import Mintage.Net.Ip

/-!
Addresses to listen on: an internet address and a number for the service there.

* `SocketAddress.read?`: `a.b.c.d:n`, or an address of version 6 in brackets, perhaps
  with the number of a network interface behind a percent sign.
-/

namespace Mintage.Net

/-- An internet address and the number of a service there. -/
inductive SocketAddress where
  | v4 (ip : Ipv4) (portNumber : UInt16)
  /-- The scope is the number of a network interface; zero names none. -/
  | v6 (ip : Ipv6) (scope : UInt32) (portNumber : UInt16)
  deriving DecidableEq

namespace SocketAddress

/-- A decimal port number of 16 bits. -/
def readPortNumber? (s : List Char) : Option UInt16 := do
  let n ← Text.readNat? s
  if n < UInt16.size then some (UInt16.ofNat n) else none

/-- A decimal scope of 32 bits. -/
def readScope? (s : List Char) : Option UInt32 := do
  let n ← Text.readNat? s
  if n < UInt32.size then some (UInt32.ofNat n) else none

/-- Reads what stands between the brackets. -/
def readScoped? (s : List Char) : Option (Ipv6 × UInt32) :=
  match Text.splitAt? '%' s with
  | none => (Ipv6.read? s).map (·, 0)
  | some (ip, scope) => do return (← Ipv6.read? ip, ← readScope? scope)

/-- An address and a port with a colon between them; an IPv6 address stands in brackets. -/
def read? (s : List Char) : Option SocketAddress :=
  match s with
  | '[' :: r =>
      match Text.splitAt? ']' r with
      | some (inside, ':' :: portNumber) => do
          let (ip, scope) ← readScoped? inside
          return v6 ip scope (← readPortNumber? portNumber)
      | _ => none
  | _ =>
      match Text.splitAt? ':' s with
      | some (ip, portNumber) => do return v4 (← Ipv4.read? ip) (← readPortNumber? portNumber)
      | none => none

/-- The form that is read back; a scope of zero is left out. -/
def chars : SocketAddress → List Char
  | v4 ip portNumber => ip.chars ++ ':' :: Text.digits portNumber.toNat
  | v6 ip scope portNumber =>
      '[' :: ip.mixedChars ++ (if scope = 0 then [] else '%' :: Text.digits scope.toNat) ++
        ']' :: ':' :: Text.digits portNumber.toNat

/-- The form that is read back, as a text. -/
def text (a : SocketAddress) : String :=
  String.ofList a.chars

end SocketAddress

end Mintage.Net
