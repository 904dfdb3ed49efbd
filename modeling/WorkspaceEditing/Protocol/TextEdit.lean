import WorkspaceEditing.Protocol.Position

/-!
# Text edits and the order in which they are applied

A batch of text edits speaks of one text, the one before the batch. Applied from the last start
position to the first, no edit moves the places of those still to come. Of several edits at one
start the last in the batch is applied first, so that insertions at one place end up in the order
of the batch.

## Main definitions

* `Protocol.TextEdit` — a range, and the text that replaces it.
* `Protocol.applicationOrder` — a batch in the order in which it is applied.
-/

namespace WorkspaceEditing

namespace Protocol

/-- The replacement of a range of a document by a new text. -/
structure TextEdit where
  range : Range
  newText : Text
  deriving DecidableEq, Repr

/-- The edit with the ends of its range in order. -/
def TextEdit.normalized (e : TextEdit) : TextEdit := { e with range := e.range.normalized }

/-- Adds the next edit of a batch to those before it: behind all that start later, and in front of
those that start at the same place or earlier. -/
def insertInOrder (e : TextEdit) : List TextEdit → List TextEdit
  | [] => [e]
  | first :: rest =>
    if e.range.start.before first.range.start then first :: insertInOrder e rest
    else e :: first :: rest

/-- The edits of a batch, ranges put in order, as they are applied: by descending start, and at
one start from the last of the batch to the first. -/
def applicationOrder (edits : List TextEdit) : List TextEdit :=
  edits.foldl (fun ordered e => insertInOrder e.normalized ordered) []

theorem perm_insertInOrder (e : TextEdit) (edits : List TextEdit) :
    (insertInOrder e edits).Perm (e :: edits) := by
  fun_induction insertInOrder e edits with
  | case1 => exact .refl _
  | case2 first rest _ ih => exact (ih.cons first).trans (.swap e first rest)
  | case3 => exact .refl _

end Protocol

end WorkspaceEditing
