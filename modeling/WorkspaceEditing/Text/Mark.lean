import WorkspaceEditing.Text.Position

/-!
# Marks

A mark is a named bookmark in a buffer. A buffer keeps at most one mark of each name, in the order
of their names. When lines are inserted or removed, a mark below the change moves with its line; a
mark whose line was replaced away is dropped.

## Main definitions

* `Mark.isLocalLetter` — the marks `a` to `z`, which an edit of the buffer must not lose.
* `Mark.clamped` — the mark pulled back inside a text.
* `Mark.followed` — where a mark goes when a range is replaced, if it stays.
* `Marks.set` — a mark added to a buffer's marks, or moved.
-/

namespace WorkspaceEditing

/-- A named bookmark. -/
structure Mark where
  name : Char
  position : BytePosition
  deriving DecidableEq, Repr

namespace Mark

/-- The marks `a` to `z` belong to their buffer and survive its edits. All others are the host's
own affair. -/
def isLocalLetter (m : Mark) : Bool := 'a' ≤ m.name && m.name ≤ 'z'

/-- The line on which a mark lands in a text of `lineCount` lines: its own, or the last. -/
def landingLine (m : Mark) (lineCount : Nat) : Nat := min m.position.line (lineCount - 1)

/-- The mark pulled back inside a text of `lineCount` lines, where `lineLength` gives the byte
length of the line that it lands on. -/
def clamped (m : Mark) (lineCount : Nat) (lineLength : Nat → Nat) : Mark :=
  let line := m.landingLine lineCount
  { m with position := ⟨line, min m.position.column (lineLength line)⟩ }

/-- The mark after `r` was replaced by text of `newLines` lines, which left the buffer with
`lineCount` lines. Below the range it moves with its line; inside the range it stays as long as
the replacement still has a line there. A mark on no line of the new text is dropped. -/
def followed (r : ByteRange) (newLines lineCount : Nat) (m : Mark) : Option Mark :=
  let line := m.position.line
  if line > r.stop.line then
    let moved := line + newLines - r.lineSpan
    if moved < lineCount then some { m with position := ⟨moved, m.position.column⟩ } else none
  else if line > r.start.line ∧ line - r.start.line ≥ newLines then none
  else if line < lineCount then some m
  else none

@[simp] theorem name_clamped (m : Mark) (n : Nat) (len : Nat → Nat) :
    (m.clamped n len).name = m.name := rfl

end Mark

/-- The marks of a buffer, at most one of each name, in the order of their names. -/
abbrev Marks := List Mark

namespace Marks

/-- Puts a mark in its place by name. A mark of the same name gives way. -/
def set (m : Mark) : Marks → Marks
  | [] => [m]
  | other :: rest =>
    if m.name < other.name then m :: other :: rest
    else if m.name = other.name then m :: rest
    else other :: set m rest

/-- The names that are set. -/
def names (ms : Marks) : List Char := ms.map Mark.name

/-- The marks that stay, each in its new place, after a range was replaced. -/
def followed (r : ByteRange) (newLines lineCount : Nat) (ms : Marks) : Marks :=
  ms.filterMap (Mark.followed r newLines lineCount)

theorem mem_names_set {m : Mark} {ms : Marks} {c : Char} :
    c ∈ (set m ms).names ↔ c = m.name ∨ c ∈ ms.names := by
  induction ms with
  | nil => simp [set, names]
  | cons other rest ih =>
    simp only [names] at ih
    simp only [set, names]
    split
    · simp
    · split
      · simp_all
      · simp only [List.map_cons, List.mem_cons, ih]; grind

end Marks

end WorkspaceEditing
