import WorkspaceEditing.Domain.Direction
import WorkspaceEditing.Domain.Joining
import WorkspaceEditing.Domain.Mapping
import WorkspaceEditing.Domain.NormalForm
import WorkspaceEditing.Domain.Punycode

/-!
# Labels of domain names

A domain name is a row of labels between dots. A label begins with no mark, and a joiner stands in
it only where it changes how its neighbours are written. A label that begins with `xn--` is the code
of another, which holds a character beyond ASCII. Where a name has characters written from right to
left, no label may mix directions so that it could be read in two ways.

## Main definitions

* `Domain.isLabel` — the rules for a label by itself.
* `Domain.isOfOneDirection` — the rule for labels of names with characters written from right to
  left.
* `Domain.label?` — the label that a part of a name stands for.
-/

namespace WorkspaceEditing

open Unicode

namespace Domain

/-! ## Joiners -/

/-- Asks that the letters around it are not joined. -/
def nonJoiner : Char := '\u200c'

/-- Asks that the letters around it are joined. -/
def joiner : Char := '\u200d'

/-- Whether a joiner or non-joiner changes anything between what stands before it, in reverse, and
what follows. Behind a virama both do; a non-joiner also does between letters that would join. -/
def isJoinerAtWork (c : Char) (before after : Text) : Bool :=
  before.head?.any isVirama ||
    (c == nonJoiner && (before.dropWhile isTransparent).head?.any joinsNext &&
      (after.dropWhile isTransparent).head?.any joinsPrevious)

/-- Whether every joiner of a text is at work, behind what stands before it, in reverse. -/
def joinersAtWork (before : Text) : Text → Bool
  | [] => true
  | c :: rest =>
    ((c != joiner && c != nonJoiner) || isJoinerAtWork c before rest) &&
      joinersAtWork (c :: before) rest

/-- The rules for a label by itself. -/
def isLabel (label : Text) : Bool := !label.head?.any isMark && joinersAtWork [] label

/-! ## Directions -/

/-- Whether all characters of a label are of classes that go with the direction of the first, and
the last, marks apart, ends it in that direction. Numbers of the two kinds do not mix in a label
that is written from right to left. An empty label is of any direction. -/
def isOfOneDirection (label : Text) : Bool :=
  let classes := label.map direction
  let last := (classes.reverse.dropWhile (· = .nonspacing)).head?
  match classes.head? with
  | none => true
  | some .leftToRight =>
    classes.all (fun d => d ≠ .rightToLeft && d ≠ .arabicNumber) &&
      last.any fun d => d = .leftToRight || d = .europeanNumber
  | some .rightToLeft =>
    classes.all (· ≠ .leftToRight) && last.any (· ≠ .neutral) &&
      !(classes.contains .europeanNumber && classes.contains .arabicNumber)
  | some _ => false

/-- Whether a text has a direction other than from left to right in it. -/
def hasRightToLeft (t : Text) : Bool := t.any fun c =>
  0x590 ≤ c.toNat && (direction c = .rightToLeft || direction c = .arabicNumber)

/-! ## Codes -/

/-- The label that a code behind `xn--` stands for. It must be written as it would be read: in
normal form, of characters that stand for themselves, and with one beyond ASCII. -/
def ofCode? (code : Text) : Option Text := do
  if 2000 < code.length then none
  else
    let label ← Punycode.decode? code
    if label.all standsForItself ∧ normalForm label = label ∧ label.any (0x80 ≤ ·.toNat) ∧
        ("xn--".toList.isPrefixOf? label).isNone then some label
    else none

/-- Whether a label is short enough to be written as a code, or needs none. -/
def isCodable (label : Text) : Bool := label.all (·.toNat < 0x80) || label.length ≤ 1000

/-- The label that a part of a name stands for, if it is one: a code, or a label itself. -/
def label? (part : Text) : Option Text := do
  let label ← match "xn--".toList.isPrefixOf? part with
    | some code => ofCode? code
    | none => if isCodable part then some part else none
  if isLabel label then some label else none

end Domain

end WorkspaceEditing
