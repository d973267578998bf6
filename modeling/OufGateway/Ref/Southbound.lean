import OufGateway.Lib.Except
import OufGateway.Lib.IpAddress

/-!
# Southbound destinations

`southbound_security.py`. A `Library` is what the functions use of `urllib`, of
`ipaddress` and of the resolver: each reading of a text may raise, and the resolver
answers with the addresses of its entries, `item[4][0]`, as texts.
-/

namespace OufGateway.Southbound

open Lib Ip

inductive Raised
  | denied (reason : String)
  | osError
  | valueError
deriving DecidableEq

structure RegisteredEndpoint where
  scheme : String
  host : String
  port : Nat
  allowedCidrs : List String

/-- What `urlparse` gives; `port` raises where it is no port number. -/
structure Parsed where
  scheme : String
  username : Option String
  password : Option String
  hostname : Option String
  port : Except Raised (Option Nat)
  fragment : String

/-- `ipaddress.ip_network`, of the one family or the other. -/
inductive Network
  | v4 (block : Block)
  | v6 (block : Block)

/-- `ip in network`. -/
def Network.has : Network → Address → Bool
  | .v4 block, .v4 bits => block.has bits.toNat
  | .v6 block, .v6 bits => block.has bits.toNat
  | _, _ => false

structure Library where
  urlparse : String → Except Raised Parsed
  urljoin : String → String → Except Raised String
  ipAddress : String → Except Raised Address
  ipNetwork : String → Except Raised Network
  resolver : String → Nat → Except Raised (List String)

variable (lib : Library)

def forbidden (ip : Address) : Bool :=
  ip.isLoopback || ip.isLinkLocal || ip.isMulticast || ip.isUnspecified || ip.isReserved

def denyIf (c : Bool) (reason : String) : Except Raised Unit :=
  if c then .error (.denied reason) else .ok ()

/-- `bool(text)`, where `None` is false. -/
def truthy (text : Option String) : Bool := text.any (· ≠ "")

/-- `parsed.port or (443 if parsed.scheme == 'https' else 80)`. -/
def effective (parsed : Parsed) (port : Option Nat) : Nat :=
  match port with
  | some (n + 1) => n + 1
  | _ => if parsed.scheme = "https" then 443 else 80

/-- The three parts of the comparison, where the port is read last. -/
def checkEndpoint (parsed : Parsed) (registered : RegisteredEndpoint) : Except Raised Unit := do
  denyIf (parsed.scheme ≠ registered.scheme) "UNREGISTERED_ENDPOINT"
  denyIf (parsed.hostname ≠ some registered.host) "UNREGISTERED_ENDPOINT"
  let port ← parsed.port
  denyIf (effective parsed port ≠ registered.port) "UNREGISTERED_ENDPOINT"

/-- `except OSError`. -/
def resolve (host : String) (port : Nat) : Except Raised (List String) :=
  match lib.resolver host port with
  | .error .osError => .error (.denied "DNS_RESOLUTION_FAILED")
  | answers => answers

/-- `sorted({..})`. -/
def sortedSet (answers : List String) : List String := answers.dedup.insertionSort (· ≤ ·)

def checkAddress (networks : List Network) (ip : Address) : Except Raised Unit := do
  denyIf (forbidden ip) "FORBIDDEN_ADDRESS_CLASS"
  denyIf (ip.isPrivate && networks.isEmpty) "PRIVATE_ADDRESS_UNREGISTERED"
  denyIf (!networks.isEmpty && !networks.any (·.has ip)) "DNS_REBINDING_OR_CIDR_MISMATCH"

def checkAddresses (networks : List Network) : List String → Except Raised Unit
  | [] => .ok ()
  | raw :: rest => do
    checkAddress networks (← lib.ipAddress raw)
    checkAddresses networks rest

def validateDestination (url : String) (registered : RegisteredEndpoint) :
    Except Raised (List String) := do
  let parsed ← lib.urlparse url
  denyIf (truthy parsed.username || truthy parsed.password || parsed.fragment ≠ "")
    "UNSAFE_URL_COMPONENT"
  checkEndpoint parsed registered
  denyIf (parsed.scheme ≠ "https") "TLS_REQUIRED"
  let answers ← resolve lib registered.host registered.port
  let ips := sortedSet answers
  denyIf ips.isEmpty "DNS_RESOLUTION_EMPTY"
  let networks ← registered.allowedCidrs.mapM lib.ipNetwork
  checkAddresses lib networks ips
  return ips

def validateRedirect (currentUrl location : String) (registered : RegisteredEndpoint) :
    Except Raised String := do
  let target ← lib.urljoin currentUrl location
  let _ ← validateDestination lib target registered
  return target

end OufGateway.Southbound
