import WorkspaceEditing.Host

/-!
# Watching a host

A watched host keeps a record of the calls that can fail, in the order in which they are made, and
a watch may refuse any of them by what was called before. A refused call does not reach the host,
but it is recorded. A watch may also hide the line of an empty buffer, as a host does that has not
loaded its text.

## Main definitions

* `Call` — a call that can fail.
* `Watch` — which calls are refused, and whether empty buffers show no line.
* `Host.watched` — the host under a watch.
-/

namespace WorkspaceEditing

/-- A call of a host that can fail, with its arguments. -/
inductive Call where
  | loadBuffer (path : Path)
  | setListed (buffer : BufferId)
  | line (buffer : BufferId) (index : Nat)
  | lineCount (buffer : BufferId)
  | setText (buffer : BufferId) (range : ByteRange) (newLines : List Text)
  | setCursor (position : BytePosition)
  | marks (buffer : BufferId)
  | setMarks (buffer : BufferId) (marks : List Mark)
  | deleteBuffer (buffer : BufferId)
  | setWindowBuffer (window : WindowId) (buffer : BufferId)
  | writeBuffer (buffer : BufferId)
  | fixesEndOfLine (buffer : BufferId)
  deriving DecidableEq, Repr

/-- Whether a call only looks at the host. -/
def Call.isRead : Call → Bool
  | .line .. | .lineCount .. | .marks .. | .fixesEndOfLine .. => true
  | _ => false

/-- What a watch does: it may refuse a call, given the calls before it, and it may hide the line of
an empty buffer. -/
structure Watch where
  refusal? : List Call → Call → Option HostError
  hidesEmpty : Bool

/-- The watch that refuses and hides nothing. -/
def Watch.passive : Watch := ⟨fun _ _ => none, false⟩

/-- A host with the record of the calls made to it. -/
structure Watched (σ : Type) where
  inner : σ
  calls : List Call

namespace Host

variable {σ : Type}

/-- An action of the inner host. -/
def inward {α : Type} (action : HostAction σ α) : HostAction (Watched σ) α := fun w =>
  match action ⟨w.host.inner, w.disk⟩ with
  | .ok value inner => .ok value ⟨{ w.host with inner := inner.host }, inner.disk⟩
  | .error e inner => .error e ⟨{ w.host with inner := inner.host }, inner.disk⟩

/-- Records a call, and refuses it or lets it through. -/
def guarded {α : Type} (watch : Watch) (call : Call) (action : HostAction σ α) :
    HostAction (Watched σ) α := do
  let before ← HostAction.see (·.calls)
  HostAction.update fun host => .ok { host with calls := before ++ [call] }
  match watch.refusal? before call with
  | some e => throw e
  | none => inward action

/-- Whether the text of a buffer is empty. -/
def isEmpty (host : Host σ) (buffer : BufferId) : HostAction σ Bool := do
  if (← host.lineCount buffer) = 1 then
    return (← host.line buffer 0) = some []
  else return false

/-- The number of lines of a buffer, none for an empty one. -/
def visibleLineCount (host : Host σ) (buffer : BufferId) : HostAction σ Nat := do
  if ← host.isEmpty buffer then return 0 else host.lineCount buffer

/-- A line of a buffer, none for an empty one. -/
def visibleLine (host : Host σ) (buffer : BufferId) (index : Nat) :
    HostAction σ (Option Text) := do
  if ← host.isEmpty buffer then return none else host.line buffer index

/-- The host under a watch. -/
def watched (host : Host σ) (watch : Watch) : Host (Watched σ) where
  loadBuffer path := guarded watch (.loadBuffer path) (host.loadBuffer path)
  buffers := inward host.buffers
  setListed buffer := guarded watch (.setListed buffer) (host.setListed buffer)
  line buffer index := guarded watch (.line buffer index)
    (if watch.hidesEmpty then host.visibleLine buffer index else host.line buffer index)
  lineCount buffer := guarded watch (.lineCount buffer)
    (if watch.hidesEmpty then host.visibleLineCount buffer else host.lineCount buffer)
  setText buffer range newLines := guarded watch (.setText buffer range newLines)
    (host.setText buffer range newLines)
  focusedBuffer := inward host.focusedBuffer
  cursor := inward host.cursor
  setCursor position := guarded watch (.setCursor position) (host.setCursor position)
  marks buffer := guarded watch (.marks buffer) (host.marks buffer)
  setMarks buffer marks := guarded watch (.setMarks buffer marks) (host.setMarks buffer marks)
  deleteBuffer buffer := guarded watch (.deleteBuffer buffer) (host.deleteBuffer buffer)
  windowsShowing buffer := inward (host.windowsShowing buffer)
  setWindowBuffer window buffer := guarded watch (.setWindowBuffer window buffer)
    (host.setWindowBuffer window buffer)
  writeBuffer buffer := guarded watch (.writeBuffer buffer) (host.writeBuffer buffer)
  fixesEndOfLine buffer := guarded watch (.fixesEndOfLine buffer) (host.fixesEndOfLine buffer)

end Host

end WorkspaceEditing
