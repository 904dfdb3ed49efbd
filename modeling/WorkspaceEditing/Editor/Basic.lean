import WorkspaceEditing.Host
import WorkspaceEditing.Text.Splice

/-!
# A small editor

Buffers with their texts and marks, windows that show one buffer each, and a focused window whose
cursor is the editor's. Handles of buffers and windows are numbered together in the order in which
they are given out, so both lists are in that order.

## Main definitions

* `Buffer`, `Window`, `Editor` — the state of the editor.
* `Buffer.replace?` — the buffer after a range of its text is replaced.
* `Editor.buffer`, `Editor.window` — the buffer or window of a handle, or the error for none.
-/

namespace WorkspaceEditing

/-- A text that is being edited. -/
structure Buffer where
  id : BufferId
  path : Path
  text : Text
  marks : Marks
  listed : Bool
  /-- Whether the file of the buffer gets a line break at its end. -/
  fixesEndOfLine : Bool
  deriving DecidableEq

/-- A view on a buffer, with a cursor in it. -/
structure Window where
  id : WindowId
  buffer : BufferId
  cursor : BytePosition
  deriving DecidableEq

/-- Open buffers and windows. -/
structure Editor where
  buffers : List Buffer
  windows : List Window
  focus : Option WindowId
  /-- The number of the last handle that was given out. -/
  issued : Nat
  deriving DecidableEq

/-- The position of a text that is closest to the given one: on the last line if there is no such
line, and at the end of the line if it is shorter. -/
def Text.closest (t : Text) (p : BytePosition) : BytePosition :=
  let line := min p.line (t.lineCount - 1)
  ⟨line, min p.column ((t.lineLength? line).getD 0)⟩

/-- Whether a line exists and is at least as long as a column. -/
def Text.holds (t : Text) (p : BytePosition) : Bool :=
  match t.lineLength? p.line with
  | some length => p.column ≤ length
  | none => false

namespace Buffer

/-- A new buffer, not in the list of buffers, without marks. -/
def new (id : BufferId) (path : Path) (text : Text) : Buffer :=
  { id, path, text, marks := [], listed := false, fixesEndOfLine := true }

/-- The text of a file's contents: a line break at the end is not a line of its own. -/
def textOfContents (contents : Text) : Text :=
  if contents.getLast? = some '\n' then contents.dropLast else contents

/-- What a buffer's file holds after it is written. -/
def contents (b : Buffer) : Text :=
  if b.fixesEndOfLine ∧ b.text ≠ [] then b.text ++ ['\n'] else b.text

/-- The buffer with a range of its text replaced by lines, and its marks moved along. -/
def replace? (b : Buffer) (r : ByteRange) (newLines : List Text) : Option Buffer := do
  let text ← Text.replace? r (Text.ofLines newLines) b.text
  pure { b with text, marks := b.marks.followed r (max newLines.length 1) text.lineCount }

end Buffer

namespace Editor

/-- An editor without buffers. -/
def empty : Editor := { buffers := [], windows := [], focus := none, issued := 0 }

/-- The buffer of a handle, if it is open. -/
def buffer? (e : Editor) (id : BufferId) : Option Buffer := e.buffers.find? fun b => b.id = id

/-- The buffer of a handle. -/
def buffer (e : Editor) (id : BufferId) : Except HostError Buffer :=
  match e.buffer? id with
  | some b => .ok b
  | none => .error (.unknownBuffer id)

/-- The window of a handle, if it is open. -/
def window? (e : Editor) (id : WindowId) : Option Window := e.windows.find? fun w => w.id = id

/-- The window of a handle. -/
def window (e : Editor) (id : WindowId) : Except HostError Window :=
  match e.window? id with
  | some w => .ok w
  | none => .error (.unknownWindow id)

/-- The editor with another state of one of its buffers. -/
def putBuffer (e : Editor) (b : Buffer) : Editor :=
  { e with buffers := e.buffers.map fun other => if other.id = b.id then b else other }

/-- The editor with another state of one of its windows. -/
def putWindow (e : Editor) (w : Window) : Editor :=
  { e with windows := e.windows.map fun other => if other.id = w.id then w else other }

/-- The editor with the cursors of all windows that show a buffer inside its text. -/
def clampCursors (e : Editor) (b : Buffer) : Editor :=
  { e with windows := e.windows.map fun w =>
      if w.buffer = b.id then { w with cursor := b.text.closest w.cursor } else w }

end Editor

end WorkspaceEditing
