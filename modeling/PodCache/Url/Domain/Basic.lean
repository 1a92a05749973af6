import PodCache.Url.Domain.Direction
import PodCache.Url.Domain.Joining
import PodCache.Url.Domain.Mapping
import PodCache.Url.Punycode

/-!
# Domain names

A domain name may be written with the letters of any language and in more than one way.
`Domain.ascii?` gives the one form in lower-case ASCII that stands for it, or refuses it.  The dots
of a domain name separate its labels.  A label beyond ASCII is written in ASCII as `xn--` and its
Punycode; a label that is already written so must stand for one that could have been written
plainly.
-/

namespace PodCache.Url.Domain

/-! ## Labels -/

/-- What precedes the Punycode of a label. -/
def punycodeMark : List Char := ['x', 'n', '-', '-']

/-- Whether all characters of a text are ASCII. -/
def isAscii (cs : List Char) : Bool := cs.all (·.toNat < 128)

/-- Whether a label is well formed: no mark begins it, its joiners stand where they may, and it is
not too long to be encoded. -/
def isWellFormed (limits : Limits) (label : List Char) : Bool :=
  isAscii label ||
    (!label.head?.any Text.isMark && joinersFit [] label && isWithin limits.label label.length)

/-- The label that a Punycode stands for, unless it has another plain form. -/
def ofPunycode? (limits : Limits) (code : List Char) : Option (List Char) :=
  if code.getLast? = none ∨ code.getLast? = some '-' ∨ !isWithin limits.code code.length then none
  else (Punycode.decode? limits code).filter fun label =>
    label.all isKept && Text.compose label == label

/-- The plain label that a label of a domain name in normal form stands for. -/
def plainLabel? (limits : Limits) (label : List Char) : Option (List Char) :=
  (if punycodeMark.isPrefixOf label then ofPunycode? limits (label.drop 4) else some label).filter
    (isWellFormed limits)

/-- A plain label in ASCII. -/
def asciiLabel (label : List Char) : List Char :=
  if isAscii label then label else punycodeMark ++ Punycode.encode label

/-! ## Whole names -/

/-- The plain labels of a domain name. -/
def labels? (limits : Limits) (domain : List Char) : Option (List (List Char)) := do
  let text ← normalForm? domain
  let labels ← (Text.splitAll (· == '.') text).mapM (plainLabel? limits)
  if areUniform labels then some labels else none

/-- The form of a domain name in ASCII. -/
def ascii? (limits : Limits) (domain : List Char) : Option (List Char) :=
  (labels? limits domain).map fun labels => ['.'].intercalate (labels.map asciiLabel)

end PodCache.Url.Domain
