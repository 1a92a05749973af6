import PodCache.Error
import PodCache.Store.Config
import PodCache.Url.Basic

/-!
# The address of a store

A store is reached by one URL.  `StoreConfig.connectionUrl` completes the configured address by the
configured password and database, unless the address names them already.
-/

namespace PodCache

namespace Url

/-- Whether a URL has a place for a password. -/
def takesPassword (u : Url) : Bool :=
  match u.authority with
  | some a => !a.host.isEmpty && !isFile u.scheme
  | none => false

/-- The password of a URL as it is written; empty when there is none. -/
def password (u : Url) : List Char := (u.authority.map Authority.password).getD []

/-- The URL with a password, which is percent-encoded.  The percent sign is encoded too, so that
decoding gives the password back. -/
def withPassword (u : Url) (password : List Char) : Url :=
  let escaped := password.flatMap fun c => if c = '%' then Percent.octet 37 else [c]
  { u with
    authority := u.authority.map fun a =>
      { a with password := Percent.encode Percent.userinfoSet escaped } }

/-- Whether the path is opaque text. -/
def isOpaque (u : Url) : Bool := u.authority.isNone && u.path.head? != some '/'

/-- The URL with a path of one segment.  In an opaque path the slash is no separator and is
encoded. -/
def withSegment (u : Url) (segment : List Char) : Url :=
  { u with path := (if u.isOpaque then Percent.octet 47 else ['/']) ++ segment }

/-- Whether the path names nothing. -/
def hasTrivialPath (u : Url) : Bool := u.path == [] || u.path == ['/']

end Url

namespace StoreConfig

/-- The URL with the configured password, if there is one and the URL has none. -/
def addPassword (c : StoreConfig) (u : Url) : Except Error Url :=
  let password := (c.password.getD "").toList
  if password = [] ∨ u.password ≠ [] then .ok u
  else if u.takesPassword then .ok (u.withPassword password)
  else .error (.invalidConfig .passwordRefused)

/-- The URL with the configured database, if it is not the first and the URL names none. -/
def addDatabase (c : StoreConfig) (u : Url) : Url :=
  if c.database ≠ 0 ∧ u.hasTrivialPath then u.withSegment (toString c.database.toInt).toList else u

/-- The URL that the store is reached by, given the limits of the reader of URLs. -/
def connectionUrl (c : StoreConfig) (limits : Url.Limits) : Except Error String :=
  match Url.parse limits c.address.toList with
  | .error reason => .error (.invalidConfig (.invalidAddress c.address reason))
  | .ok u => do
    let u ← c.addPassword u
    return String.ofList (c.addDatabase u).render

end StoreConfig

end PodCache
