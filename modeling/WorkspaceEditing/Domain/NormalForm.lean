import WorkspaceEditing.Domain.Composition
import WorkspaceEditing.Unicode.CombiningClass

/-!
# Normal form

One meaning can be written in several ways: with composite characters or with their parts, and with
marks in one order or another. The normal form takes composites apart, sorts the marks behind each
character by combining class, and composes again what can be composed. Text without a character
from `U+0300` on is in normal form.

## Main definitions

* `Domain.decompose` — the characters that a composite is made of.
* `Domain.sortMarks` — marks in the order of their classes.
* `Domain.compose` — composites put together.
* `Domain.normalForm` — the normal form of a text.
-/

namespace WorkspaceEditing

open Unicode

namespace Domain

/-- A character taken apart, then its first part, and so on, at most `depth` times. -/
def decomposeWithin : Nat → Char → Text
  | 0, c => [c]
  | depth + 1, c =>
    match parts? c with
    | none => [c]
    | some (first, second) => decomposeWithin depth first ++ [second]

/-- The characters that a composite is made of. The first part of a composite may be composite,
whose own first part is not; the second part never is. -/
def decompose (c : Char) : Text := decomposeWithin 2 c

/-- Puts a mark in front of sorted marks, behind those of a lower class. -/
def insertMark (c : Char) : Text → Text
  | [] => [c]
  | d :: rest =>
    if combiningClass d ≠ 0 ∧ combiningClass d < combiningClass c then d :: insertMark c rest
    else c :: d :: rest

/-- A text with the marks behind each character sorted by class. Marks of one class keep their
order. -/
def sortMarks (t : Text) : Text := t.foldr insertMark []

/-- A character of class zero with the marks behind it that it has not taken up, in reverse. -/
structure Group where
  starter : Char
  marks : Text
  deriving DecidableEq, Repr

namespace Group

/-- The characters of a group. -/
def toText (g : Group) : Text := g.starter :: g.marks.reverse

/-- Whether nothing stands between the starter of a group and a character behind the group: no
mark of the same class or a higher one. -/
def reaches (g : Group) (c : Char) : Bool :=
  match g.marks with
  | [] => true
  | last :: _ => combiningClass last < combiningClass c

/-- The group with a character behind it taken up by its starter, if they make a composite. -/
def takeUp? (g : Group) (c : Char) : Option Group :=
  if g.reaches c then (composite? g.starter c).map fun whole => ⟨whole, g.marks⟩ else none

end Group

/-- The composed form of the rest of a text behind a group. -/
def composeFrom (g : Group) : Text → Text
  | [] => g.toText
  | c :: rest =>
    match g.takeUp? c with
    | some g => composeFrom g rest
    | none =>
      if combiningClass c = 0 then g.toText ++ composeFrom ⟨c, []⟩ rest
      else composeFrom ⟨g.starter, c :: g.marks⟩ rest

/-- A text with composites put together. Marks at its front have nothing to join. -/
def compose : Text → Text
  | [] => []
  | c :: rest => if combiningClass c = 0 then composeFrom ⟨c, []⟩ rest else c :: compose rest

/-- The normal form of a text. -/
def normalForm (t : Text) : Text :=
  if t.all (·.toNat < 0x300) then t else compose (sortMarks (t.flatMap decompose))

end Domain

end WorkspaceEditing
