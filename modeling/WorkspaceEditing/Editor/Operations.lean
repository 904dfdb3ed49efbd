import WorkspaceEditing.Editor.Basic

/-!
# What the small editor does

The operations on buffers, windows, marks and the cursor. Those that need no file are functions of
the editor alone; opening and writing a buffer also read and change the file tree.

## Main definitions

* `Editor.insertBuffer`, `Editor.openWindow` — new buffers and windows.
* `Editor.setText`, `Editor.setMarks`, `Editor.setCursor` — the changes of a buffer.
* `Editor.deleteBuffer`, `Editor.setWindowBuffer` — the changes of what windows show.
* `Editor.loadBuffer`, `Editor.writeBuffer` — buffers and their files.
* `Editor.asHost` — the editor as a host.
-/

namespace WorkspaceEditing

namespace Editor

/-! ## New buffers and windows -/

/-- Opens a buffer with a text, without its file. -/
def insertBuffer (e : Editor) (path : Path) (text : Text) : BufferId × Editor :=
  let id : BufferId := ⟨e.issued + 1⟩
  (id, { e with buffers := e.buffers ++ [Buffer.new id path text], issued := e.issued + 1 })

/-- Opens a window on a buffer, with its cursor at the start, and gives it the focus. -/
def openWindow (e : Editor) (buffer : BufferId) : Except HostError (WindowId × Editor) := do
  let _ ← e.buffer buffer
  let id : WindowId := ⟨e.issued + 1⟩
  pure (id, { e with
    windows := e.windows ++ [{ id, buffer, cursor := .origin }]
    focus := some id
    issued := e.issued + 1 })

/-! ## Looking at the editor -/

/-- The buffer that a window shows. -/
def windowBuffer? (e : Editor) (id : WindowId) : Option BufferId := (e.window? id).map (·.buffer)

/-- The text of a buffer. -/
def text? (e : Editor) (id : BufferId) : Option Text := (e.buffer? id).map (·.text)

/-- The path of a buffer. -/
def path? (e : Editor) (id : BufferId) : Option Path := (e.buffer? id).map (·.path)

/-- Whether a buffer is open and in the list of buffers. -/
def isListed (e : Editor) (id : BufferId) : Bool := (e.buffer? id).any (·.listed)

/-- The open buffer of a path, if there is one. -/
def findBuffer? (e : Editor) (path : Path) : Option BufferId :=
  (e.buffers.find? fun b => b.path.same path).map (·.id)

/-- All open buffers with their paths. -/
def bufferPaths (e : Editor) : List (BufferId × Path) := e.buffers.map fun b => (b.id, b.path)

/-- A line of a buffer, if it has that many. -/
def line (e : Editor) (id : BufferId) (index : Nat) : Except HostError (Option Text) :=
  (e.buffer id).map fun b => b.text.line? index

/-- The number of lines of a buffer. -/
def lineCount (e : Editor) (id : BufferId) : Except HostError Nat :=
  (e.buffer id).map fun b => b.text.lineCount

/-- The marks of a buffer. -/
def marks (e : Editor) (id : BufferId) : Except HostError Marks := (e.buffer id).map (·.marks)

/-- Whether a buffer gets a line break at its end when it is written. -/
def fixesEndOfLine (e : Editor) (id : BufferId) : Except HostError Bool :=
  (e.buffer id).map (·.fixesEndOfLine)

/-- The focused window. -/
def focusedWindow? (e : Editor) : Option Window := e.focus.bind e.window?

/-- The buffer that the focused window shows. -/
def focusedBuffer? (e : Editor) : Option BufferId := e.focusedWindow?.map (·.buffer)

/-- The cursor of the focused window. -/
def cursor? (e : Editor) : Option BytePosition := e.focusedWindow?.map (·.cursor)

/-- The windows that show a buffer. -/
def windowsShowing (e : Editor) (id : BufferId) : List WindowId :=
  (e.windows.filter fun w => w.buffer = id).map (·.id)

/-! ## Changing a buffer -/

/-- Sets whether a buffer gets a line break at its end when it is written. -/
def setFixesEndOfLine (e : Editor) (id : BufferId) (fixes : Bool) : Except HostError Editor := do
  let b ← e.buffer id
  pure (e.putBuffer { b with fixesEndOfLine := fixes })

/-- Puts a buffer into the list of buffers. -/
def setListed (e : Editor) (id : BufferId) : Except HostError Editor := do
  let b ← e.buffer id
  pure (e.putBuffer { b with listed := true })

/-- Replaces a range of a buffer's text by lines, moves its marks along, and pulls the cursors in
it back inside the new text. -/
def setText (e : Editor) (id : BufferId) (r : ByteRange) (newLines : List Text) :
    Except HostError Editor := do
  let b ← e.buffer id
  match b.replace? r newLines with
  | some changed => pure ((e.putBuffer changed).clampCursors changed)
  | none => throw (.outOfBounds id r)

/-- Sets or moves marks of a buffer, wherever they point. -/
def setMarks (e : Editor) (id : BufferId) (marks : List Mark) : Except HostError Editor := do
  let b ← e.buffer id
  pure (e.putBuffer { b with marks := marks.foldl (fun ms m => Marks.set m ms) b.marks })

/-! ## Windows and the cursor -/

/-- Moves the cursor of the focused window, if there is one, to a place in its buffer. -/
def setCursor (e : Editor) (p : BytePosition) : Except HostError Editor := do
  match e.focus with
  | none => pure e
  | some id =>
    let w ← e.window id
    let b ← e.buffer w.buffer
    if b.text.holds p then pure (e.putWindow { w with cursor := p })
    else throw (.outOfBounds w.buffer (.point p))

/-- Gives a buffer up and closes the windows that show it. If the focused window is among them, the
focus goes to the oldest window that is left. -/
def deleteBuffer (e : Editor) (id : BufferId) : Except HostError Editor := do
  let _ ← e.buffer id
  let windows := e.windows.filter fun w => w.buffer ≠ id
  let focus := match e.focus with
    | some w => if windows.any fun other => other.id = w then some w else windows.head?.map (·.id)
    | none => none
  pure { e with buffers := e.buffers.filter fun b => b.id ≠ id, windows, focus }

/-- Makes a window show another buffer, with its cursor inside the text. -/
def setWindowBuffer (e : Editor) (window : WindowId) (buffer : BufferId) :
    Except HostError Editor := do
  let b ← e.buffer buffer
  let w ← e.window window
  pure ((e.putWindow { w with buffer }).clampCursors b)

/-! ## Buffers and their files -/

/-- The text of the file at a path, for a new buffer. A file that is not there is empty. -/
def readFile (path : Path) : HostAction Editor Text := fun w =>
  match w.disk.readText? path with
  | .ok contents => .ok (Buffer.textOfContents contents) w
  | .error .notFound => .ok [] w
  | .error cause => .error (.file path cause) w

/-- The buffer of a path: the one that is open, or a new one with the text of the file. -/
def loadBuffer (path : Path) : HostAction Editor BufferId := do
  match ← HostAction.see (·.findBuffer? path) with
  | some id => pure id
  | none =>
    let text ← readFile path
    modifyGet fun w =>
      let (id, host) := w.host.insertBuffer path text
      (id, { w with host })

/-- Writes a buffer to its file. -/
def writeBuffer (id : BufferId) : HostAction Editor Unit := do
  let b ← HostAction.look (·.buffer id)
  HostAction.onDisk b.path (DiskAction.write b.path b.contents.toBytes)

/-- The editor as a host. -/
def asHost : Host Editor where
  loadBuffer := loadBuffer
  buffers := HostAction.see bufferPaths
  setListed id := HostAction.update (·.setListed id)
  line id index := HostAction.look (·.line id index)
  lineCount id := HostAction.look (·.lineCount id)
  setText id r newLines := HostAction.update (·.setText id r newLines)
  focusedBuffer := HostAction.see focusedBuffer?
  cursor := HostAction.see cursor?
  setCursor p := HostAction.update (·.setCursor p)
  marks id := HostAction.look (·.marks id)
  setMarks id marks := HostAction.update (·.setMarks id marks)
  deleteBuffer id := HostAction.update (·.deleteBuffer id)
  windowsShowing id := HostAction.see (·.windowsShowing id)
  setWindowBuffer window buffer := HostAction.update (·.setWindowBuffer window buffer)
  writeBuffer := writeBuffer
  fixesEndOfLine id := HostAction.look (·.fixesEndOfLine id)

end Editor

end WorkspaceEditing
