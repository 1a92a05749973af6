import PodCache.Text.CombiningClass
import PodCache.Text.Mark

/-!
# Joined letters

Letters of some scripts join their neighbours.  The two joiners, which are not seen themselves, may
stand in a label only where they change how it looks: both after the sign that takes the vowel off a
letter, and the one that keeps letters apart also between letters that would join, whatever marks
stand around it.
-/

namespace PodCache.Url.Domain

/-- On which sides a character joins. -/
inductive Joining where
  | left
  | right
  | dual
  /-- The letters around it join across it. -/
  | transparent
  deriving DecidableEq, Repr

namespace Joining

/-- The characters that may stand in a label, are not nonspacing marks, and take part in joining; as
inclusive ranges. -/
def ranges : List (Nat × Nat × Joining) :=
  [(0x620, 0x620, .dual), (0x622, 0x625, .right), (0x626, 0x626, .dual), (0x627, 0x627, .right),
    (0x628, 0x628, .dual), (0x629, 0x629, .right), (0x62A, 0x62E, .dual), (0x62F, 0x632, .right),
    (0x633, 0x63F, .dual), (0x641, 0x647, .dual), (0x648, 0x648, .right), (0x649, 0x64A, .dual),
    (0x66E, 0x66F, .dual), (0x671, 0x673, .right), (0x679, 0x687, .dual), (0x688, 0x699, .right),
    (0x69A, 0x6BF, .dual), (0x6C0, 0x6C0, .right), (0x6C1, 0x6C2, .dual), (0x6C3, 0x6CB, .right),
    (0x6CC, 0x6CC, .dual), (0x6CD, 0x6CD, .right), (0x6CE, 0x6CE, .dual), (0x6CF, 0x6CF, .right),
    (0x6D0, 0x6D1, .dual), (0x6D2, 0x6D3, .right), (0x6D5, 0x6D5, .right), (0x6EE, 0x6EF, .right),
    (0x6FA, 0x6FC, .dual), (0x6FF, 0x6FF, .dual), (0x710, 0x710, .right), (0x712, 0x714, .dual),
    (0x715, 0x719, .right), (0x71A, 0x71D, .dual), (0x71E, 0x71E, .right), (0x71F, 0x727, .dual),
    (0x728, 0x728, .right), (0x729, 0x729, .dual), (0x72A, 0x72A, .right), (0x72B, 0x72B, .dual),
    (0x72C, 0x72C, .right), (0x72D, 0x72E, .dual), (0x72F, 0x74D, .right), (0x74E, 0x758, .dual),
    (0x759, 0x75B, .right), (0x75C, 0x76A, .dual), (0x76B, 0x76C, .right), (0x76D, 0x770, .dual),
    (0x771, 0x771, .right), (0x772, 0x772, .dual), (0x773, 0x774, .right), (0x775, 0x777, .dual),
    (0x778, 0x779, .right), (0x77A, 0x77F, .dual), (0x7CA, 0x7EA, .dual), (0x840, 0x840, .right),
    (0x841, 0x845, .dual), (0x846, 0x847, .right), (0x848, 0x848, .dual), (0x849, 0x849, .right),
    (0x84A, 0x853, .dual), (0x854, 0x854, .right), (0x855, 0x855, .dual), (0x856, 0x858, .right),
    (0x860, 0x860, .dual), (0x862, 0x865, .dual), (0x867, 0x867, .right), (0x868, 0x868, .dual),
    (0x869, 0x882, .right), (0x886, 0x886, .dual), (0x889, 0x88D, .dual), (0x88E, 0x88E, .right),
    (0x88F, 0x8A9, .dual), (0x8AA, 0x8AC, .right), (0x8AE, 0x8AE, .right), (0x8AF, 0x8B0, .dual),
    (0x8B1, 0x8B2, .right), (0x8B3, 0x8B8, .dual), (0x8B9, 0x8B9, .right), (0x8BA, 0x8C8, .dual),
    (0x1807, 0x1807, .dual), (0x1820, 0x1878, .dual), (0x1887, 0x18AA, .dual),
    (0xA840, 0xA871, .dual), (0xA872, 0xA872, .left), (0x10AC0, 0x10AC4, .dual),
    (0x10AC5, 0x10AC5, .right), (0x10AC7, 0x10AC7, .right), (0x10AC9, 0x10ACA, .right),
    (0x10ACD, 0x10ACD, .left), (0x10ACE, 0x10AD2, .right), (0x10AD3, 0x10AD6, .dual),
    (0x10AD7, 0x10AD7, .left), (0x10AD8, 0x10ADC, .dual), (0x10ADD, 0x10ADD, .right),
    (0x10ADE, 0x10AE0, .dual), (0x10AE1, 0x10AE1, .right), (0x10AE4, 0x10AE4, .right),
    (0x10AEB, 0x10AEE, .dual), (0x10AEF, 0x10AEF, .right), (0x10B80, 0x10B80, .dual),
    (0x10B81, 0x10B81, .right), (0x10B82, 0x10B82, .dual), (0x10B83, 0x10B85, .right),
    (0x10B86, 0x10B88, .dual), (0x10B89, 0x10B89, .right), (0x10B8A, 0x10B8B, .dual),
    (0x10B8C, 0x10B8C, .right), (0x10B8D, 0x10B8D, .dual), (0x10B8E, 0x10B8F, .right),
    (0x10B90, 0x10B90, .dual), (0x10B91, 0x10B91, .right), (0x10BA9, 0x10BAC, .right),
    (0x10BAD, 0x10BAE, .dual), (0x10D00, 0x10D00, .left), (0x10D01, 0x10D21, .dual),
    (0x10D22, 0x10D22, .right), (0x10D23, 0x10D23, .dual), (0x10EC2, 0x10EC2, .right),
    (0x10EC3, 0x10EC4, .dual), (0x10EC6, 0x10EC7, .dual), (0x10ED9, 0x10ED9, .dual),
    (0x10F30, 0x10F32, .dual), (0x10F33, 0x10F33, .right), (0x10F34, 0x10F44, .dual),
    (0x10F51, 0x10F53, .dual), (0x10F54, 0x10F54, .right), (0x10F70, 0x10F73, .dual),
    (0x10F74, 0x10F75, .right), (0x10F76, 0x10F81, .dual), (0x10FB0, 0x10FB0, .dual),
    (0x10FB2, 0x10FB3, .dual), (0x10FB4, 0x10FB6, .right), (0x10FB8, 0x10FB8, .dual),
    (0x10FB9, 0x10FBA, .right), (0x10FBB, 0x10FBC, .dual), (0x10FBD, 0x10FBD, .right),
    (0x10FBE, 0x10FBF, .dual), (0x10FC1, 0x10FC1, .dual), (0x10FC2, 0x10FC3, .right),
    (0x10FC4, 0x10FC4, .dual), (0x10FC9, 0x10FC9, .right), (0x10FCA, 0x10FCA, .dual),
    (0x10FCB, 0x10FCB, .left), (0x1E922, 0x1E943, .dual), (0x1E94B, 0x1E94B, .transparent)]

/-- How a character joins, if it does. -/
def ofChar? (c : Char) : Option Joining :=
  if Text.isNonspacing c then some transparent else Text.lookupRange ranges c

/-- Whether the nearest character that is not transparent joins towards the joiner, where `side` is
how a letter joins that joins on that side alone. -/
def meets (side : Joining) (cs : List Char) : Bool :=
  match (cs.dropWhile fun c => ofChar? c == some transparent).head?.bind ofChar? with
  | some joining => joining == dual || joining == side
  | none => false

end Joining

/-- Whether each joiner of a label stands where it may, given what precedes the label's rest, the
last character first. -/
def joinersFit (before : List Char) : List Char → Bool
  | [] => true
  | c :: rest =>
    (match c with
    | '\u200C' =>
      before.head?.any (Text.combiningClass · == Text.viramaClass) ||
        (Joining.meets .left before && Joining.meets .right rest)
    | '\u200D' => before.head?.any (Text.combiningClass · == Text.viramaClass)
    | _ => true) && joinersFit (c :: before) rest

end PodCache.Url.Domain
