import NotifyRelay.Text
import Mathlib.Data.List.Basic

/-! What the SSRF guard uses of Python's `ipaddress`, as of the version the image pins.
Only whether a text is refused matters here, not the text of the `ValueError`. -/
namespace NotifyRelay

open Text

/-- The bits a network of this prefix length fixes. -/
def netmask (w prefixlen : Nat) : BitVec w := BitVec.allOnes w ^^^ (BitVec.allOnes w >>> prefixlen)

/-- A network has no host bits. -/
structure Network (w : Nat) where
  networkAddress : BitVec w
  prefixlen : Nat
  masked : networkAddress &&& netmask w prefixlen = networkAddress
  deriving DecidableEq

namespace Network

def contains {w : Nat} (network : Network w) (ip : BitVec w) : Bool :=
  ip &&& netmask w network.prefixlen == network.networkAddress

/-- `strict` refuses an address with host bits, otherwise they are cleared. -/
def ofAddress? {w : Nat} (strict : Bool) (ip : BitVec w) (prefixlen : Nat) : Option (Network w) :=
  if strict && ip &&& netmask w prefixlen != ip then none
  else some ⟨ip &&& netmask w prefixlen, prefixlen, by rw [BitVec.and_assoc, BitVec.and_self]⟩

end Network

inductive IpAddress where
  | v4 (ip : BitVec 32)
  | v6 (ip : BitVec 128) (scopeId : Option (List Char))
  deriving DecidableEq

inductive IpNetwork where
  | v4 (network : Network 32)
  | v6 (network : Network 128)
  deriving DecidableEq

/-- `ip in network`: false across versions. -/
def IpNetwork.contains : IpNetwork → IpAddress → Bool
  | .v4 network, .v4 ip => network.contains ip
  | .v6 network, .v6 ip _ => network.contains ip
  | _, _ => false

namespace IpAddress

/-- `_BaseV4._parse_octet`. -/
def parseOctet (octet : List Char) : Option Nat :=
  if !isDecimal octet || 3 < octet.length then none
  else if octet ≠ ['0'] ∧ octet.head? = some '0' then none
  else if 255 < toInt 10 octet then none
  else some (toInt 10 octet)

/-- `_BaseV4._ip_int_from_string`. -/
def parseV4 (text : List Char) : Option (BitVec 32) :=
  match text.splitOn '.' with
  | [a, b, c, d] => do
      let octets ← [a, b, c, d].mapM parseOctet
      some (.ofNat 32 (octets.foldl (fun n octet => n * 256 + octet) 0))
  | _ => none

/-- `_BaseV6._parse_hextet`. -/
def parseHextet (hextet : List Char) : Option Nat :=
  if !hextet.all isHexDigit || 4 < hextet.length || hextet.isEmpty then none
  else some (toInt 16 hextet)

/-- The parts of the text, with a dotted suffix turned into two hextets. -/
def hextets (text : List Char) : Option (List (List Char)) :=
  let parts := text.splitOn ':'
  if parts.length < 3 then none
  else
    let last := parts.getLastD []
    if '.' ∈ last then
      (parseV4 last).map fun ip =>
        parts.dropLast ++ [Nat.toDigits 16 (ip.toNat / 65536), Nat.toDigits 16 (ip.toNat % 65536)]
    else some parts

/-- Where the empty parts between the first and the last part are. -/
def skips (parts : List (List Char)) : List Nat :=
  (List.range parts.length).filter fun i =>
    1 ≤ i && i + 1 < parts.length && (parts.getD i []).isEmpty

/-- The parts before and after `::`, and how many hextets it stands for. -/
def layout (parts : List (List Char)) : Option (List (List Char) × List (List Char) × Nat) :=
  match skips parts with
  | [] =>
      if parts.length = 8 then some (parts, [], 0) else none
  | [skip] =>
      let high := parts.take skip
      let low := parts.drop (skip + 1)
      let leading := (high.headD []).isEmpty
      let trailing := (low.getLastD []).isEmpty
      let high := if leading then high.tail else high
      let low := if trailing then low.dropLast else low
      if leading ∧ high ≠ [] then none
      else if trailing ∧ low ≠ [] then none
      else if 8 ≤ high.length + low.length then none
      else some (high, low, 8 - (high.length + low.length))
  | _ => none

/-- `_BaseV6._ip_int_from_string`. -/
def parseV6 (text : List Char) : Option (BitVec 128) := do
  let parts ← hextets text
  if 9 < parts.length then none
  else
    let (high, low, skipped) ← layout parts
    let high ← high.mapM parseHextet
    let low ← low.mapM parseHextet
    let words := high ++ List.replicate skipped 0 ++ low
    some (.ofNat 128 (words.foldl (fun n word => n * 65536 + word) 0))

/-- `_BaseV6._split_scope_id`. -/
def splitScopeId (text : List Char) : Option (List Char × Option (List Char)) :=
  match text.span (· != '%') with
  | (address, []) => some (address, none)
  | (address, _ :: scopeId) =>
      if scopeId.isEmpty || '%' ∈ scopeId then none else some (address, some scopeId)

def parseV4Address (text : List Char) : Option IpAddress :=
  if '/' ∈ text then none else (parseV4 text).map .v4

def parseV6Address (text : List Char) : Option IpAddress :=
  if '/' ∈ text then none
  else do
    let (address, scopeId) ← splitScopeId text
    let ip ← parseV6 address
    some (.v6 ip scopeId)

/-- `ipaddress.ip_address`; `none` is the `ValueError`. -/
def parse (text : List Char) : Option IpAddress :=
  (parseV4Address text).orElse fun _ => parseV6Address text

end IpAddress

/-- The prefix length whose netmask this is, if there is one. -/
def prefixFromMask {w : Nat} (mask : BitVec w) : Option Nat :=
  (List.range (w + 1)).find? fun prefixlen => netmask w prefixlen == mask

/-- `_prefix_from_prefix_string`. -/
def prefixFromPrefixString (w : Nat) (text : List Char) : Option Nat :=
  if isDecimal text && toInt 10 text ≤ w then some (toInt 10 text) else none

/-- `_prefix_from_ip_string`: a netmask or, inverted, a hostmask. -/
def prefixFromIpString (text : List Char) : Option Nat := do
  let ip ← IpAddress.parseV4 text
  (prefixFromMask ip).orElse fun _ => prefixFromMask (~~~ip)

namespace IpNetwork

/-- `IPv4Network(address, strict)`. -/
def parseV4 (strict : Bool) (address : List Char) (mask : Option (List Char)) :
    Option IpNetwork := do
  let ip ← IpAddress.parseV4 address
  let prefixlen ← match mask with
    | none => some 32
    | some text => (prefixFromPrefixString 32 text).orElse fun _ => prefixFromIpString text
  (Network.ofAddress? strict ip prefixlen).map .v4

/-- `IPv6Network(address, strict)`. -/
def parseV6 (strict : Bool) (address : List Char) (mask : Option (List Char)) :
    Option IpNetwork := do
  let (address, _) ← IpAddress.splitScopeId address
  let ip ← IpAddress.parseV6 address
  let prefixlen ← match mask with
    | none => some 128
    | some text => prefixFromPrefixString 128 text
  (Network.ofAddress? strict ip prefixlen).map .v6

/-- `ipaddress.ip_network`; `none` is the `ValueError`. -/
def parse (strict : Bool) (text : List Char) : Option IpNetwork :=
  match text.splitOn '/' with
  | [address] => (parseV4 strict address none).orElse fun _ => parseV6 strict address none
  | [address, mask] =>
      (parseV4 strict address (some mask)).orElse fun _ => parseV6 strict address (some mask)
  | _ => none

/-- Networks that are written down in code; each is one. -/
def constants (texts : List String)
    (h : ∀ text ∈ texts, (parse true text.toList).isSome = true := by decide +kernel) :
    List IpNetwork :=
  texts.attach.map fun text => (parse true text.1.toList).get (h text.1 text.2)

def contained (networks : List IpNetwork) (ip : IpAddress) : Bool :=
  networks.any (·.contains ip)

end IpNetwork

open IpNetwork (constants contained)

namespace IPv4Constants

def multicastNetworks : List IpNetwork := constants ["224.0.0.0/4"]
def publicNetworks : List IpNetwork := constants ["100.64.0.0/10"]

def privateNetworks : List IpNetwork :=
  constants ["0.0.0.0/8", "10.0.0.0/8", "127.0.0.0/8", "169.254.0.0/16", "172.16.0.0/12",
    "192.0.0.0/24", "192.0.0.170/31", "192.0.2.0/24", "192.168.0.0/16", "198.18.0.0/15",
    "198.51.100.0/24", "203.0.113.0/24", "240.0.0.0/4", "255.255.255.255/32"]

def privateNetworksExceptions : List IpNetwork := constants ["192.0.0.9/32", "192.0.0.10/32"]

end IPv4Constants

namespace IPv6Constants

def multicastNetworks : List IpNetwork := constants ["ff00::/8"]

def privateNetworks : List IpNetwork :=
  constants ["::1/128", "::/128", "::ffff:0:0/96", "64:ff9b:1::/48", "100::/64", "2001::/23",
    "2001:db8::/32", "2002::/16", "3fff::/20", "fc00::/7", "fe80::/10"]

def privateNetworksExceptions : List IpNetwork :=
  constants ["2001:1::1/128", "2001:1::2/128", "2001:3::/32", "2001:4:112::/48", "2001:20::/28",
    "2001:30::/28"]

end IPv6Constants

namespace IpAddress

/-- `IPv6Address.ipv4_mapped`. -/
def ipv4Mapped (ip : BitVec 128) : Option IpAddress :=
  if ip >>> 32 = 0xffff then some (.v4 (ip.setWidth 32)) else none

def isPrivateV4 (ip : IpAddress) : Bool :=
  contained IPv4Constants.privateNetworks ip &&
    !contained IPv4Constants.privateNetworksExceptions ip

def isGlobalV4 (ip : IpAddress) : Bool :=
  !contained IPv4Constants.publicNetworks ip && !isPrivateV4 ip

def isPrivateV6 (ip : IpAddress) : Bool :=
  contained IPv6Constants.privateNetworks ip &&
    !contained IPv6Constants.privateNetworksExceptions ip

/-- A mapped address is as global as the IPv4 address in it. -/
def isGlobal : IpAddress → Bool
  | .v4 ip => isGlobalV4 (.v4 ip)
  | .v6 ip scopeId =>
      match ipv4Mapped ip with
      | some mapped => isGlobalV4 mapped
      | none => !isPrivateV6 (.v6 ip scopeId)

def isMulticast : IpAddress → Bool
  | .v4 ip => contained IPv4Constants.multicastNetworks (.v4 ip)
  | .v6 ip scopeId =>
      match ipv4Mapped ip with
      | some mapped => contained IPv4Constants.multicastNetworks mapped
      | none => contained IPv6Constants.multicastNetworks (.v6 ip scopeId)

end IpAddress

end NotifyRelay
