import PodCache.Bytes
import PodCache.Text.Split

/-!
# IPv6 addresses

An address is eight groups of up to four hexadecimal digits between colons.  A double colon, at most
one, stands for one or more groups that are zero, and the last two groups may be spelled as four
decimal octets.  It is printed with the first longest run of zero groups, if it has two or more,
replaced by a double colon.
-/

namespace PodCache.Url.Ipv6

/-- The number of a group of hexadecimal digits. -/
def group? (digits : List Char) : Option Nat :=
  if digits.isEmpty ∨ 4 < digits.length then none
  else digits.foldlM (fun n c => (Bytes.hexValue? c).map (16 * n + ·)) 0

/-- A decimal octet without leading zeros. -/
def octet? (digits : List Char) : Option Nat :=
  if digits.isEmpty ∨ 3 < digits.length ∨ !digits.all Char.isDigit then none
  else if 1 < digits.length ∧ digits.head? = some '0' then none
  else
    let n := digits.foldl (fun n c => 10 * n + (c.toNat - 48)) 0
    if n < 256 then some n else none

/-- The two groups that four decimal octets spell. -/
def dotted? (text : List Char) : Option (List Nat) :=
  match (Text.splitAll (· == '.') text).mapM octet? with
  | some [a, b, c, d] => some [256 * a + b, 256 * c + d]
  | _ => none

/-- The groups of a part of an address without a double colon.  Only the groups that end the
address may be spelled as octets. -/
def groups? (atEnd : Bool) (text : List Char) : Option (List Nat) :=
  if text.isEmpty then some []
  else
    let pieces := Text.splitAll (· == ':') text
    match pieces.getLast? with
    | none => none
    | some last => do
      let front ← pieces.dropLast.mapM group?
      let back ← if atEnd ∧ last.contains '.' then dotted? last else (group? last).map ([·])
      return front ++ back

/-- What precedes the first double colon, and what follows it. -/
def cutDouble : List Char → List Char × Option (List Char)
  | ':' :: ':' :: rest => ([], some rest)
  | [] => ([], none)
  | c :: cs =>
    let (before, after) := cutDouble cs
    (c :: before, after)

/-- The eight groups of an address. -/
def parse? (text : List Char) : Option (List Nat) :=
  match cutDouble text with
  | (all, none) => do
    let groups ← groups? true all
    if groups.length = 8 then some groups else none
  | (left, some right) => do
    let front ← groups? false left
    let back ← groups? true right
    if front.length + back.length ≤ 7 then
      some (front ++ List.replicate (8 - (front.length + back.length)) 0 ++ back)
    else none

/-- How many groups are zero from a position on. -/
def zerosAt (groups : List Nat) (i : Nat) : Nat := ((groups.drop i).takeWhile (· == 0)).length

/-- The position of the first longest run of zero groups. -/
def longestZeros (groups : List Nat) : Nat :=
  (List.range groups.length).foldl
    (fun best i => if zerosAt groups best < zerosAt groups i then i else best) 0

/-- Groups between colons. -/
def renderGroups (groups : List Nat) : List Char :=
  [':'].intercalate (groups.map (Nat.toDigits 16))

/-- The text of an address. -/
def render (groups : List Nat) : List Char :=
  let start := longestZeros groups
  let count := zerosAt groups start
  if 2 ≤ count then
    renderGroups (groups.take start) ++ ':' :: ':' :: renderGroups (groups.drop (start + count))
  else renderGroups groups

end PodCache.Url.Ipv6
