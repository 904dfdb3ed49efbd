import WorkspaceEditing.Text.Mark
import WorkspaceEditing.Disk.Operations

/-!
# Host editors

Edits are applied to the buffers of a host editor, which is reached through a fixed set of calls.
A host shares the file tree with whoever edits it: it reads and writes files itself, and finds them
changed by others. Every call of a host either succeeds or fails with an error of the host.

## Main definitions

* `BufferId`, `WindowId` — the handles that a host gives out.
* `HostError` — why a host refuses a call.
* `World` — a host together with the file tree.
* `Host` — the calls of a host.
-/

namespace WorkspaceEditing

/-- The handle of a buffer. -/
structure BufferId where
  number : Nat
  deriving DecidableEq, Repr

/-- The handle of a window. -/
structure WindowId where
  number : Nat
  deriving DecidableEq, Repr

/-- Why a host refuses a call. -/
inductive HostError where
  | unknownBuffer (buffer : BufferId)
  | unknownWindow (window : WindowId)
  /-- A range, or a position as an empty range, is not in the text of the buffer. -/
  | outOfBounds (buffer : BufferId) (range : ByteRange)
  /-- The file of a buffer cannot be read or written. -/
  | file (path : Path) (cause : DiskError)
  deriving DecidableEq, Repr

/-- A buffer's handle as messages show it. -/
def BufferId.text (b : BufferId) : String := s!"buffer#{b.number}"

/-- A window's handle as messages show it. -/
def WindowId.text (w : WindowId) : String := s!"window#{w.number}"

/-- The wording of an error. -/
def HostError.message : HostError → String
  | unknownBuffer b => s!"unknown {b.text}"
  | unknownWindow w => s!"unknown {w.text}"
  | outOfBounds b r => s!"range {r.start.text}..{r.stop.text} out of bounds in {b.text}"
  | file p cause => s!"i/o error on {p.display}: {cause.message}"

/-- A host in some state, and the file tree. -/
structure World (σ : Type) where
  host : σ
  disk : Disk

/-- What a host may do: change itself and the file tree, and fail. What was done before a failure
stays done. -/
abbrev HostAction (σ α : Type) := EStateM HostError (World σ) α

namespace HostAction

variable {σ α : Type}

/-- A look at the host that may fail. -/
def look (read : σ → Except HostError α) : HostAction σ α := fun w =>
  match read w.host with
  | .ok value => .ok value w
  | .error e => .error e w

/-- A look at the host that always succeeds. -/
def see (read : σ → α) : HostAction σ α := fun w => .ok (read w.host) w

/-- A change of the host that may fail, and changes nothing then. -/
def update (f : σ → Except HostError σ) : HostAction σ Unit := fun w =>
  match f w.host with
  | .ok host => .ok () { w with host }
  | .error e => .error e w

/-- An action on the file tree, whose failure concerns the file at a path. -/
def onDisk (p : Path) (action : DiskAction α) : HostAction σ α := fun w =>
  match action w.disk with
  | .ok value disk => .ok value { w with disk }
  | .error cause disk => .error (.file p cause) { w with disk }

end HostAction

/-- The calls of a host editor. Lines and columns count from zero, columns in bytes, and a line is
given without its line feed. -/
structure Host (σ : Type) where
  /-- The buffer of a path, loaded from its file if it is not open. -/
  loadBuffer : Path → HostAction σ BufferId
  /-- All open buffers with their paths. -/
  buffers : HostAction σ (List (BufferId × Path))
  /-- Makes a buffer appear in the list of buffers. -/
  setListed : BufferId → HostAction σ Unit
  /-- A line of a buffer, if it has that many. -/
  line : BufferId → Nat → HostAction σ (Option Text)
  /-- The number of lines of a buffer. -/
  lineCount : BufferId → HostAction σ Nat
  /-- Replaces a range by lines, with line breaks between them. -/
  setText : BufferId → ByteRange → List Text → HostAction σ Unit
  /-- The buffer that the focused window shows. -/
  focusedBuffer : HostAction σ (Option BufferId)
  /-- The cursor of the focused window. -/
  cursor : HostAction σ (Option BytePosition)
  /-- Moves the cursor of the focused window. -/
  setCursor : BytePosition → HostAction σ Unit
  /-- All marks of a buffer. -/
  marks : BufferId → HostAction σ (List Mark)
  /-- Sets or moves marks of a buffer. -/
  setMarks : BufferId → List Mark → HostAction σ Unit
  /-- Gives a buffer up, and closes the windows that show it. -/
  deleteBuffer : BufferId → HostAction σ Unit
  /-- The windows that show a buffer. -/
  windowsShowing : BufferId → HostAction σ (List WindowId)
  /-- Makes a window show another buffer. -/
  setWindowBuffer : WindowId → BufferId → HostAction σ Unit
  /-- Writes a buffer to its file. -/
  writeBuffer : BufferId → HostAction σ Unit
  /-- Whether a buffer gets a line break at its end when it is written, which makes an empty last
  line redundant. -/
  fixesEndOfLine : BufferId → HostAction σ Bool

end WorkspaceEditing
