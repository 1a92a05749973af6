import PodCache.Url.Host
import PodCache.Url.Path

/-!
# URLs

An absolute URL has a scheme, usually an authority (who is asked: user, host, port), a path, and
possibly a query and a fragment.  `Url.parse` reads them from a text as browsers do and leaves every
part in the form in which `Url.render` writes it.  A URL without an authority whose path does not
begin with a slash is opaque.
-/

namespace PodCache

/-- Who a URL names. -/
structure Url.Authority where
  username : List Char := []
  /-- The password; an empty one is the same as none. -/
  password : List Char := []
  host : Url.Host
  port : Option Nat := none
  deriving DecidableEq, Repr

/-- An absolute URL, its parts as they are written. -/
structure Url where
  scheme : List Char
  authority : Option Url.Authority
  path : List Char
  query : Option (List Char)
  fragment : Option (List Char)
  deriving DecidableEq, Repr

namespace Url

/-! ## Schemes -/

/-- Whether a scheme names files. -/
def isFile (scheme : List Char) : Bool := scheme == "file".toList

/-- The port that a scheme implies. -/
def defaultPort? (scheme : List Char) : Option Nat :=
  match String.ofList scheme with
  | "http" | "ws" => some 80
  | "https" | "wss" => some 443
  | "ftp" => some 21
  | _ => none

/-- Whether the URLs of a scheme always have a host and a path, with either slash before each
segment. -/
def isSpecial (scheme : List Char) : Bool := isFile scheme || (defaultPort? scheme).isSome

/-- Whether a character may stand in a scheme after the first. -/
def isSchemeChar (c : Char) : Bool := c.isAlphanum || c == '+' || c == '-' || c == '.'

/-- The scheme that a text begins with, in lower case, and what follows its colon. -/
def cutScheme? (text : List Char) : Option (List Char × List Char) :=
  match Text.cutFirst ':' text with
  | (before, some rest) =>
    let scheme := Path.plain before
    if scheme.head?.any Char.isAlpha ∧ scheme.all isSchemeChar then
      some (scheme.map Char.toLower, rest)
    else none
  | (_, none) => none

/-! ## Authorities -/

/-- What precedes the colon of a port, and what follows the host; a colon between brackets belongs
to the host. -/
def cutHost : Bool → List Char → List Char × List Char
  | _, [] => ([], [])
  | inside, c :: cs =>
    if c = ':' ∧ inside = false then ([], c :: cs)
    else
      let (host, rest) := cutHost (if c = '[' then true else if c = ']' then false else inside) cs
      (c :: host, rest)

/-- The port after a colon, without the one that the scheme implies, and what follows it. -/
def cutPort (scheme text : List Char) : Except ParseError (Option Nat × List Char) :=
  let digits := text.takeWhile Char.isDigit
  let rest := text.dropWhile Char.isDigit
  let number := digits.foldl (fun n c => 10 * n + (c.toNat - 48)) 0
  if 65535 < number then .error .invalidPort
  else if !rest.isEmpty ∧ rest.head? ≠ some '\\' then .error .invalidPort
  else
    let port := if digits.isEmpty ∨ defaultPort? scheme = some number then none else some number
    .ok (port, rest)

/-- The user name and the password before the last `@`. -/
def userinfo (text : List Char) : List Char × List Char :=
  let (username, password) := Text.cutFirst ':' text
  (Percent.encode Percent.userinfoSet username,
    Percent.encode Percent.userinfoSet (password.getD []))

/-- Reads an authority, and gives back what follows its port.  `last` tells whether nothing comes
after the authority. -/
def parseAuthority (limits : Limits) (scheme : List Char) (last : Bool) (text : List Char) :
    Except ParseError (Authority × List Char) := do
  let (info, text) := Text.cutLast '@' text
  if info = some [] ∧ text = [] ∧ last = false then throw .emptyHost
  let (username, password) := userinfo (info.getD [])
  let (hostText, rest) := cutHost false text
  if isSpecial scheme ∧ hostText = [] then throw .emptyHost
  let host ← Host.parse limits (isSpecial scheme) hostText
  if host.isEmpty ∧ rest ≠ [] then throw .emptyHost
  let (port, rest) ← cutPort scheme (rest.drop 1)
  if host.isEmpty ∧ (username ≠ [] ∨ password ≠ []) then throw .emptyHost
  return ({ username, password, host, port }, rest)

/-! ## Whole URLs -/

/-- The authority and the path of a text that begins with an authority. -/
def parseHierarchy (limits : Limits) (scheme : List Char) (last : Bool) (text : List Char) :
    Except ParseError (Option Authority × List Char) := do
  let special := isSpecial scheme
  let authorityText := text.takeWhile (!Path.isSeparator special ·)
  let rest := text.dropWhile (!Path.isSeparator special ·)
  let (authority, left) ← parseAuthority limits scheme (last && rest.isEmpty) authorityText
  let pathText := left ++ rest
  let path := if pathText.isEmpty ∧ special = false then [] else Path.read special pathText
  return (some authority, path)

/-- The host of a file URL, where the local host is the same as none. -/
def parseFileHost (limits : Limits) (text : List Char) : Except ParseError Host :=
  if text.isEmpty then .ok (.name [])
  else do
    let host ← Host.parseDomain limits text
    return if host = .name "localhost".toList then .name [] else host

/-- The path of a file URL, given its segments: no path begins with two slashes. -/
def filePath (trail : Path.Trail) : List Char :=
  '/' :: (Path.render trail).dropWhile (· == '/')

/-- The host and the path of what follows the two slashes of a file URL.  A drive letter is no host.
A path after a host begins with the slash that ends the host; without a host that slash makes an
empty segment of its own.  A path that begins with a drive letter leaves no host. -/
def parseFileAuthority (limits : Limits) (text : List Char) :
    Except ParseError (Authority × List Char) := do
  let hostText := Path.plain (text.takeWhile (!Path.isSeparator true ·))
  let drive := Path.isDrive hostText
  let host ← parseFileHost limits (if drive then [] else hostText)
  let pathText := if drive then text else text.dropWhile (!Path.isSeparator true ·)
  let trail := Path.trail true true
    (if host.isEmpty then pathText else Path.dropSeparator true pathText)
  return ({ host := if trail.drive then .name [] else host }, filePath trail)

/-- The authority and the path of a file URL; without two slashes there is no host. -/
def parseFile (limits : Limits) (text : List Char) :
    Except ParseError (Authority × List Char) :=
  let rest := Path.dropSeparator true text
  match (Path.afterSeparator? true text).bind (Path.afterSeparator? true) with
  | some text => parseFileAuthority limits text
  | none => .ok ({ host := .name [] }, filePath (Path.trail true true rest))

/-- The authority and the path of what follows the scheme.  Only the path of a file heeds tabs and
ends of lines. -/
def parseBody (limits : Limits) (scheme : List Char) (last : Bool) (text : List Char) :
    Except ParseError (Option Authority × List Char) :=
  let plain := Path.plain text
  if isFile scheme then (parseFile limits text).map fun (authority, path) => (some authority, path)
  else if isSpecial scheme then
    parseHierarchy limits scheme last (plain.dropWhile (Path.isSeparator true))
  else
    match plain with
    | '/' :: '/' :: rest => parseHierarchy limits scheme last rest
    | '/' :: _ => .ok (none, Path.read false plain)
    | _ => .ok (none, Percent.encode Percent.controls plain)

/-- Reads an absolute URL.  Spaces and controls at its ends do not count, nor do tabs and ends of
lines anywhere, save as `Path` says. -/
def parse (limits : Limits) (text : List Char) : Except ParseError Url :=
  match cutScheme? (Text.trim (·.toNat ≤ 0x20) text) with
  | none => .error .relativeWithoutBase
  | some (scheme, rest) => do
    let (rest, fragment) := Text.cutFirst '#' rest
    let (body, query) := Text.cutFirst '?' rest
    let (authority, path) ← parseBody limits scheme (query.isNone && fragment.isNone) body
    return {
      scheme, authority, path
      query := query.map fun q =>
        Percent.encode (Percent.querySet (isSpecial scheme)) (Path.plain q)
      fragment := fragment.map fun f => Percent.encode Percent.fragmentSet (Path.plain f) }

namespace Authority

/-- The user name and the password with their marks. -/
def renderUserinfo (a : Authority) : List Char :=
  if a.username = [] ∧ a.password = [] then []
  else a.username ++ (if a.password = [] then [] else ':' :: a.password) ++ ['@']

/-- The authority as it stands in a URL. -/
def render (a : Authority) : List Char :=
  a.renderUserinfo ++ a.host.render ++
    (match a.port with
    | none => []
    | some port => ':' :: Nat.toDigits 10 port)

end Authority

/-- The text of a URL.  A path that would be taken for an authority is preceded by a dot. -/
def render (u : Url) : List Char :=
  u.scheme ++ ':' ::
    (match u.authority with
    | some a => '/' :: '/' :: a.render
    | none => if ['/', '/'].isPrefixOf u.path then ['/', '.'] else []) ++
    u.path ++ ((u.query.map ('?' :: ·)).getD []) ++ ((u.fragment.map ('#' :: ·)).getD [])

end Url

end PodCache
