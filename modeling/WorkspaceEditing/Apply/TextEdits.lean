import WorkspaceEditing.Apply.Cursor
import WorkspaceEditing.Apply.Marks
import WorkspaceEditing.Config
import WorkspaceEditing.Protocol.TextEdit

/-!
# Applying text edits to a buffer

A batch of text edits is applied to one buffer, the last in the document first, each to the text
that the one before has left. Nothing in an edit makes it fail: a range that goes past the end of a
line or of the buffer is cut there. Afterwards an empty last line that the edits have left is
removed, letter marks are repaired, and the cursor is put where its text is.

## Main definitions

* `Applier` — a host together with how edits are to be applied to it.
* `Applier.applyTextEdit` — one edit.
* `Applier.applyTextEdits` — a batch.
-/

namespace WorkspaceEditing

open Protocol

/-- A host, and how the edits of one server are applied to it. -/
structure Applier (σ : Type) where
  host : Host σ
  config : Config
  encoding : Encoding

namespace Applier

variable {σ : Type}

/-- The applier for a server with which no encoding was agreed on. -/
def new (host : Host σ) (config : Config) : Applier σ := ⟨host, config, config.offsetEncoding⟩

/-- The applier for a server with which an encoding was agreed on. -/
def withEncoding (a : Applier σ) (encoding : Encoding) : Applier σ := { a with encoding }

/-- The byte length of a line, zero if there is none. -/
def lineLength (a : Applier σ) (buffer : BufferId) (index : Nat) : HostAction σ Nat := do
  return ((← a.host.line buffer index).map Text.byteLength).getD 0

/-- Whether a buffer has several lines, the last of them empty. -/
def endsWithEmptyLine (a : Applier σ) (buffer : BufferId) : HostAction σ Bool := do
  let lineCount ← a.host.lineCount buffer
  if lineCount < 2 then return false
  else return (← a.host.line buffer (lineCount - 1)) = some []

/-- Removes an empty last line, if writing the buffer adds a line break at its end. -/
def trimFinalEmptyLine (a : Applier σ) (buffer : BufferId) : HostAction σ Unit := do
  if !(← a.host.fixesEndOfLine buffer) then return
  if !(← a.endsWithEmptyLine buffer) then return
  let last := (← a.host.lineCount buffer) - 1
  let lengthBefore ← a.lineLength buffer (last - 1)
  a.host.setText buffer ⟨⟨last - 1, lengthBefore⟩, ⟨last, 0⟩⟩ [[]]

/-! ## One edit -/

/-- Appends lines behind the last line of a buffer of `lineCount` lines, as lines of their own. -/
def append (a : Applier σ) (buffer : BufferId) (lineCount : Nat) (newLines : List Text) :
    HostAction σ Unit := do
  let last := lineCount - 1
  let stop : BytePosition := ⟨last, ← a.lineLength buffer last⟩
  a.host.setText buffer (.point stop) (if lineCount = 0 then newLines else [] :: newLines)

/-- The end of a range cut at the end of its line, whose text is given, and the lines that replace
the range. Where the range runs to the end of the line, a line break at the end of the new text
would leave an empty line behind, and is left out. -/
def cutAtLineEnd (stop : BytePosition) (line : Option Text) (newText : Text) :
    BytePosition × List Text :=
  let length := (line.map Text.byteLength).getD 0
  let newLines := newText.lines
  (⟨stop.line, min stop.column length⟩,
    if length ≤ stop.column ∧ newText.getLast? = some '\n' then newLines.dropLast else newLines)

/-- Applies one edit, its range in order. Gives back where it leaves a cursor that is kept track
of. Text for a line behind the last is appended, and leaves the cursor alone. -/
def applyTextEdit (a : Applier σ) (buffer : BufferId) (edit : TextEdit)
    (cursor : Option BytePosition) : HostAction σ (Option BytePosition) := do
  let newText := edit.newText.normalizeLineBreaks
  let lineCount ← a.host.lineCount buffer
  if lineCount ≤ edit.range.start.line then
    a.append buffer lineCount newText.lines
    return cursor
  let startText ← a.host.line buffer edit.range.start.line
  let start := edit.range.start.decode startText a.encoding
  let stopText ←
    if edit.range.stop.line = edit.range.start.line then pure startText
    else a.host.line buffer edit.range.stop.line
  let stop := edit.range.stop.decode stopText a.encoding
  let (stop, newLines) ←
    if lineCount - 1 < stop.line then do
      let last := lineCount - 1
      pure ((⟨last, ← a.lineLength buffer last⟩ : BytePosition), newText.lines)
    else pure (cutAtLineEnd stop stopText newText)
  let range : ByteRange := ⟨start, start.latest stop⟩
  a.host.setText buffer range newLines
  return cursor.map (·.shifted range newLines)

/-! ## A batch -/

/-- Applies edits one after the other, and gives back where they leave the cursor. -/
def applyInOrder (a : Applier σ) (buffer : BufferId) :
    List TextEdit → Option BytePosition → HostAction σ (Option BytePosition)
  | [], cursor => pure cursor
  | edit :: rest, cursor => do
    a.applyInOrder buffer rest (← a.applyTextEdit buffer edit cursor)

/-- The cursor, if it is to be kept track of while a buffer is edited: it has to be in the buffer,
and the configuration has to ask for it. -/
def trackedCursor (a : Applier σ) (buffer : BufferId) : HostAction σ (Option BytePosition) := do
  if !a.config.restoreCursor then return none
  if (← a.host.focusedBuffer) = some buffer then a.host.cursor else return none

/-- Applies a batch of text edits to a buffer. An empty last line that was there before the edits
is kept. The marks are repaired after it is decided, so that they lie inside the final text. -/
def applyTextEdits (a : Applier σ) (buffer : BufferId) (edits : List TextEdit) :
    HostAction σ Unit := do
  if edits = [] then return
  a.host.setListed buffer
  let cursor ← a.trackedCursor buffer
  let saved ← if a.config.restoreMarks then a.host.letterMarks buffer else pure []
  let hadEmptyLine ← a.endsWithEmptyLine buffer
  let cursor ← a.applyInOrder buffer (applicationOrder edits) cursor
  if a.config.trimFinalNewline && !hadEmptyLine then a.trimFinalEmptyLine buffer
  a.host.repairMarks buffer saved
  match cursor with
  | some position => a.host.restoreCursor position
  | none => pure ()

end Applier

end WorkspaceEditing
