/-!
# Cutting text

A text is cut at separators: at every one, at the first, or at the last.
-/

namespace PodCache.Text

/-- The pieces between the characters that satisfy `p`; always at least one piece. -/
def splitAll (p : Char → Bool) : List Char → List (List Char)
  | [] => [[]]
  | c :: cs =>
    match splitAll p cs with
    | [] => [[]]
    | piece :: pieces => if p c then [] :: piece :: pieces else (c :: piece) :: pieces

/-- What precedes the first `mark`, and what follows it. -/
def cutFirst (mark : Char) : List Char → List Char × Option (List Char)
  | [] => ([], none)
  | c :: cs =>
    if c = mark then ([], some cs)
    else
      let (before, after) := cutFirst mark cs
      (c :: before, after)

/-- What precedes the last `mark`, if there is one, and what follows it. -/
def cutLast (mark : Char) : List Char → Option (List Char) × List Char
  | [] => (none, [])
  | c :: cs =>
    match cutLast mark cs with
    | (some before, after) => (some (c :: before), after)
    | (none, after) => if c = mark then (some [], after) else (none, c :: after)

/-- The characters without those at both ends that satisfy `p`. -/
def trim (p : Char → Bool) (cs : List Char) : List Char :=
  ((cs.dropWhile p).reverse.dropWhile p).reverse

theorem splitAll_ne_nil (p : Char → Bool) (cs : List Char) : splitAll p cs ≠ [] := by
  cases cs with
  | nil => simp [splitAll]
  | cons c cs =>
    unfold splitAll
    split
    · simp
    · split <;> simp

end PodCache.Text
