import WorkspaceEditing.Host
import WorkspaceEditing.Text.Lines

/-!
# Letter marks across an edit

A host moves the marks of a buffer when it replaces text, and drops some. The letter marks that are
gone after an edit are set again, as near to their old places as the new text allows. Those that
the host has kept are where it has put them.

## Main definitions

* `Host.letterMarks` — the marks that an edit must not lose.
* `Host.repairMarks` — sets those again that are gone.
-/

namespace WorkspaceEditing

namespace Host

variable {σ : Type}

/-- The letter marks of a buffer. -/
def letterMarks (host : Host σ) (buffer : BufferId) : HostAction σ (List Mark) := do
  return (← host.marks buffer).filter (·.isLocalLetter)

/-- Marks pulled back inside the text of a buffer that has `lineCount` lines. -/
def pullBack (host : Host σ) (buffer : BufferId) (lineCount : Nat) :
    List Mark → HostAction σ (List Mark)
  | [] => pure []
  | mark :: rest => do
    let line ← host.line buffer (mark.landingLine lineCount)
    let length := (line.map Text.byteLength).getD 0
    return mark.clamped lineCount (fun _ => length) :: (← host.pullBack buffer lineCount rest)

/-- Sets those of the saved marks again whose names the buffer has no more. -/
def repairMarks (host : Host σ) (buffer : BufferId) (saved : List Mark) : HostAction σ Unit := do
  if saved = [] then pure ()
  else
    let remaining ← host.marks buffer
    let lineCount ← host.lineCount buffer
    let gone := saved.filter fun mark => !(remaining.map (·.name)).contains mark.name
    let repaired ← host.pullBack buffer lineCount gone
    if repaired = [] then pure () else host.setMarks buffer repaired

end Host

end WorkspaceEditing
