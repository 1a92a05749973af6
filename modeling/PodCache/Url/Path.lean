import PodCache.Text.Split
import PodCache.Url.Percent

/-!
# Hierarchical paths

A path is a list of segments, each preceded by a slash.  While it is read, a segment of one dot is
left out and a segment of two dots takes the one before it away, except a drive letter, which stays.
Tabs and ends of lines do not count, but one that follows the colon of the drive letter that begins
the path of a file ends the segment there.
-/

namespace PodCache.Url.Path

/-- Whether a character is a tab or an end of line. -/
def isBreak (c : Char) : Bool := c == '\t' || c == '\n' || c == '\r'

/-- The characters of a text that count. -/
def plain (text : List Char) : List Char := text.filter (!isBreak ·)

/-- Whether a character ends a segment. -/
def isSeparator (special : Bool) (c : Char) : Bool := c == '/' || (special && c == '\\')

/-- Whether a segment is a dot, possibly percent-encoded. -/
def isDot (segment : List Char) : Bool :=
  [".", "%2e"].contains (String.ofList (segment.map Char.toLower))

/-- Whether a segment is two dots, each possibly percent-encoded. -/
def isDoubleDot (segment : List Char) : Bool :=
  ["..", ".%2e", "%2e.", "%2e%2e"].contains (String.ofList (segment.map Char.toLower))

/-- Whether a segment is a drive letter: a letter and a colon or a bar. -/
def isDrive : List Char → Bool
  | [letter, mark] => letter.isAlpha && (mark == ':' || mark == '|')
  | _ => false

/-- Whether a segment is a drive letter, possibly with a backslash and more after it. -/
def beginsWithDrive (segment : List Char) : Bool :=
  isDrive (segment.take 2) && (segment.length == 2 || segment[2]? == some '\\')

/-- The segments before the last one, the last first; a drive letter is not taken away. -/
def parent : List (List Char) → List (List Char)
  | [] => []
  | last :: front => if beginsWithDrive last then last :: front else front

/-- A drive letter that a break ends, and what follows the break, if anything that counts does. -/
def brokenDrive? (text : List Char) : Option (List Char × List Char) :=
  match Text.cutFirst ':' text with
  | (before, some after) =>
    let drive := plain before ++ [':']
    if isDrive drive && after.head?.any isBreak && !(plain after).isEmpty then
      some (drive, plain after)
    else none
  | (_, none) => none

/-- The segments of a path that have been read. -/
structure Trail where
  /-- The segments as they are written, the last first. -/
  segments : List (List Char) := []
  /-- Whether the first segment is a whole segment that is a drive letter. -/
  drive : Bool := false
  deriving DecidableEq, Repr

namespace Trail

/-- Adds a segment that is written as it is. -/
def push (t : Trail) (text : List Char) : Trail := { t with segments := text :: t.segments }

/-- Takes the last segment away. -/
def up (t : Trail) : Trail := { t with segments := parent t.segments }

/-- Adds a segment.  In a file URL the drive letter that begins a path has a colon. -/
def add (file : Bool) (t : Trail) (text : List Char) : Trail :=
  if file && t.segments.isEmpty && isDrive text then
    { segments := [text.take 1 ++ [':']], drive := true }
  else t.push (Percent.encode Percent.pathSet text)

/-- Reads a segment that has no broken drive letter; `last` tells whether the path ends with it. -/
def addResolved (file last : Bool) (t : Trail) (text : List Char) : Trail :=
  if isDoubleDot text then if last then t.up.push [] else t.up
  else if isDot text then if last then t.push [] else t
  else t.add file text

/-- Reads a segment as it stands in the text.  What follows a broken drive letter is a segment of
its own, in which dots mean nothing. -/
def read (file last : Bool) (t : Trail) (text : List Char) : Trail :=
  match if file && t.segments.isEmpty then brokenDrive? text else none with
  | some (drive, rest) => (t.push drive).push (Percent.encode Percent.pathSet rest)
  | none => t.addResolved file last (plain text)

/-- Reads the segments of a path, of which the last one ends it. -/
def readAll (file : Bool) (t : Trail) : List (List Char) → Trail
  | [] => t
  | text :: rest => readAll file (t.read file rest.isEmpty text) rest

end Trail

/-- The trail of a text that is cut at the separators. -/
def trail (special file : Bool) (text : List Char) : Trail :=
  Trail.readAll file {} (Text.splitAll (isSeparator special) text)

/-- The text of a path. -/
def render (t : Trail) : List Char := t.segments.reverse.flatMap ('/' :: ·)

/-- What follows the separator that a text begins with. -/
def afterSeparator? (special : Bool) (text : List Char) : Option (List Char) :=
  match text.dropWhile isBreak with
  | [] => none
  | c :: rest => if isSeparator special c then some rest else none

/-- A text without the separator that it may begin with. -/
def dropSeparator (special : Bool) (text : List Char) : List Char :=
  (afterSeparator? special text).getD text

/-- The path of a text whose first separator may be missing. -/
def read (special : Bool) (text : List Char) : List Char :=
  render (trail special false (dropSeparator special text))

end PodCache.Url.Path
