import PodCache.Bytes
import PodCache.Text.Split

/-!
# IPv4 addresses

A host whose last label is a number is an IPv4 address.  Its parts may be decimal, octal (with a
leading `0`) or hexadecimal (with a leading `0x`); the last part fills up the octets that the others
leave.  It is printed as four decimal octets.
-/

namespace PodCache.Url.Ipv4

/-- The number that digits of a base denote; zero for no digits. -/
def number? (base : Nat) (digits : List Char) : Option Nat :=
  digits.foldlM (fun n c => do
    let d ← Bytes.hexValue? c
    if d < base then some (base * n + d) else none) 0

/-- The number of a part, in the base that its beginning shows. -/
def part? : List Char → Option Nat
  | [] => none
  | '0' :: 'x' :: digits => number? 16 digits
  | '0' :: 'X' :: digits => number? 16 digits
  | '0' :: c :: digits => number? 8 (c :: digits)
  | digits => number? 10 digits

/-- The labels of a host without the empty one after a final dot. -/
def labels (host : List Char) : List (List Char) :=
  let all := Text.splitAll (· == '.') host
  if 1 < all.length ∧ all.getLast? = some [] then all.dropLast else all

/-- Whether the last label of a host is a number. -/
def endsInNumber (host : List Char) : Bool :=
  match (labels host).getLast? with
  | none => false
  | some last => (!last.isEmpty && last.all Char.isDigit) || (part? last).isSome

/-- The 32-bit number of an address whose parts are given. -/
def assemble? : List Nat → Nat → Option Nat
  | [], _ => none
  | [last], count => if last < Nat.pow 256 (4 - count) then some last else none
  | part :: rest, count => do
    let tail ← assemble? rest (count + 1)
    if part < 256 then some (part * Nat.pow 256 (3 - count) + tail) else none

/-- The address of a host. -/
def parse? (host : List Char) : Option Nat := do
  let parts ← (labels host).mapM part?
  if parts.length ≤ 4 then assemble? parts 0 else none

/-- The four octets of an address, in decimal. -/
def render (address : Nat) : List Char :=
  ['.'].intercalate
    ([address / 16777216 % 256, address / 65536 % 256, address / 256 % 256, address % 256].map
      (Nat.toDigits 10))

end PodCache.Url.Ipv4
