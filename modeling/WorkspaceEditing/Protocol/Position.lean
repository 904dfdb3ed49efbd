import WorkspaceEditing.Text.Encoding

/-!
# Positions and ranges in the protocol

A language server names a place by a line and a character offset, the offset counted in code units
of the agreed encoding. A range may come with its ends swapped.

## Main definitions

* `Protocol.Position`, `Protocol.Range` — places and ranges as a server sends them.
* `Protocol.Position.decode` — the buffer position of a place.
-/

namespace WorkspaceEditing

namespace Protocol

/-- A place as a server names it: a line, and an offset in code units. -/
structure Position where
  line : Nat
  character : Nat
  deriving DecidableEq, Repr

namespace Position

/-- Strictly earlier in the document. -/
def before (a b : Position) : Bool :=
  a.line < b.line || (a.line == b.line && a.character < b.character)

theorem before_iff {a b : Position} :
    a.before b = true ↔ a.line < b.line ∨ (a.line = b.line ∧ a.character < b.character) := by
  simp [before]

/-- The buffer position of a place, given the text of its line. Where the line does not exist the
offset is kept as it is, and the caller clamps the whole position. -/
def decode (lineText : Option Text) (p : Position) (e : Encoding) : BytePosition :=
  match lineText with
  | some text => ⟨p.line, e.column text p.character⟩
  | none => ⟨p.line, p.character⟩

end Position

/-- A range as a server sends it. -/
structure Range where
  start : Position
  stop : Position
  deriving DecidableEq, Repr

namespace Range

/-- The range with its earlier end first. -/
def normalized (r : Range) : Range := if r.stop.before r.start then ⟨r.stop, r.start⟩ else r

theorem not_stop_before_start (r : Range) :
    r.normalized.stop.before r.normalized.start = false := by
  rw [Bool.eq_false_iff, Ne, Position.before_iff]
  unfold normalized
  split
  · rename_i h; rw [Position.before_iff] at h; simp only; omega
  · rename_i h; rwa [Position.before_iff] at h

end Range

end Protocol

end WorkspaceEditing
