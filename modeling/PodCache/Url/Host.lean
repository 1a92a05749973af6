import PodCache.Url.Domain.Basic
import PodCache.Url.Error
import PodCache.Url.Ipv4
import PodCache.Url.Ipv6
import PodCache.Url.Percent

/-!
# Hosts

The host of a URL is an IPv6 address in brackets or a name.  In a URL of a special scheme the name
is a domain, written in lower-case ASCII, or an IPv4 address; in any other URL it is opaque and
keeps its letters.
-/

namespace PodCache.Url

/-- The host of a URL. -/
inductive Host where
  | name (text : List Char)
  | ipv4 (address : Nat)
  | ipv6 (groups : List Nat)
  deriving DecidableEq, Repr

namespace Host

/-- The host as it stands in a URL. -/
def render : Host → List Char
  | name text => text
  | ipv4 address => Ipv4.render address
  | ipv6 groups => '[' :: Ipv6.render groups ++ [']']

/-- Whether there is no host. -/
def isEmpty : Host → Bool
  | name [] => true
  | _ => false

/-- The visible characters that no host holds, as they separate the parts of a URL. -/
def separators : List Char := ['#', '/', ':', '<', '>', '?', '@', '[', '\\', ']', '^', '|']

/-- The characters that no host holds. -/
def forbidden (c : Char) : Bool :=
  separators.contains c || ['\x00', '\t', '\n', '\r', ' '].contains c

/-- The characters that no domain holds. -/
def forbiddenInDomain (c : Char) : Bool :=
  forbidden c || c == '%' || c.toNat < 0x20 || c.toNat == 0x7F

/-- The host in brackets. -/
def bracketed (text : List Char) : Except ParseError Host :=
  if text.getLast? = some ']' then
    match Ipv6.parse? (text.drop 1).dropLast with
    | some groups => .ok (ipv6 groups)
    | none => .error .invalidIpv6Address
  else .error .invalidIpv6Address

/-- The host of a URL whose scheme is not special. -/
def parseOpaque (text : List Char) : Except ParseError Host :=
  if text.head? = some '[' then bracketed text
  else if text.any forbidden then .error .invalidDomainCharacter
  else .ok (name (Percent.encode Percent.controls text))

/-- The host of a URL whose scheme is special. -/
def parseDomain (limits : Limits) (text : List Char) : Except ParseError Host :=
  if text.head? = some '[' then bracketed text
  else
    match (Text.Utf8.decodeChars? (Percent.decode text)).bind (Domain.ascii? limits) with
    | none => .error .invalidInternationalName
    | some ascii =>
      if ascii.any forbiddenInDomain then .error .invalidInternationalName
      else if ascii.isEmpty then .error .emptyHost
      else if Ipv4.endsInNumber ascii then
        match Ipv4.parse? ascii with
        | some address => .ok (ipv4 address)
        | none => .error .invalidIpv4Address
      else .ok (name ascii)

/-- Reads the text of a host. -/
def parse (limits : Limits) (special : Bool) (text : List Char) : Except ParseError Host :=
  if special then parseDomain limits text else parseOpaque text

end Host

end PodCache.Url
