import WorkspaceEditing.Host
import WorkspaceEditing.Text.Lines

/-!
# The cursor across an edit

The cursor stays with its text: when text in front of it is replaced, it moves as far as the text
behind the replacement does.

## Main definitions

* `BytePosition.shifted` — where a position goes when a range in front of it is replaced.
* `Host.restoreCursor` — puts the cursor of a host at a position, if there is such a place.
-/

namespace WorkspaceEditing

/-- Where the text at a position goes when `r` is replaced by lines. Only a position strictly
behind the range moves. On the last line of the range it comes to stand on the last line of the
replacement; on a later line it keeps its column. -/
def BytePosition.shifted (p : BytePosition) (r : ByteRange) (newLines : List Text) : BytePosition :=
  if p ≤ r.stop then p
  else
    let line := p.line + newLines.length - r.lineSpan
    if p.line = r.stop.line then
      let column := p.column - r.stop.column + (newLines.getLastD []).byteLength
      ⟨line, if newLines.length = 1 then column + r.start.column else column⟩
    else ⟨line, p.column⟩

/-- Puts the cursor of the focused window at a position, if its buffer has such a line, and the
line is long enough. Otherwise the cursor stays where it is. -/
def Host.restoreCursor {σ : Type} (host : Host σ) (p : BytePosition) : HostAction σ Unit := do
  match ← host.focusedBuffer with
  | none => pure ()
  | some buffer =>
    match ← host.line buffer p.line with
    | none => pure ()
    | some line => if p.column ≤ line.byteLength then host.setCursor p

end WorkspaceEditing
