/-!
# Positions and ranges in a buffer

A place in a buffer is a line index and a byte column, both from zero. Document order compares
lines first and columns second. Neither number has a bound, so a sum of them is never too large.

## Main definitions

* `BytePosition` — a line and a byte column in it, ordered as in the document.
* `ByteRange` — the stretch between two positions, its end not included.
* `ByteRange.normalized`, `ByteRange.lineSpan` — the range with its ends in order, and the number
  of lines that it touches.
-/

namespace WorkspaceEditing

/-- A place in a buffer: a line index and a byte offset in that line. -/
structure BytePosition where
  line : Nat
  column : Nat
  deriving DecidableEq, Repr

namespace BytePosition

/-- The start of every buffer. -/
def origin : BytePosition := ⟨0, 0⟩

/-- Document order: by line, and within one line by column. -/
instance : Ord BytePosition where
  compare a b := (compare a.line b.line).then (compare a.column b.column)

instance : LE BytePosition where
  le a b := a.line < b.line ∨ (a.line = b.line ∧ a.column ≤ b.column)

instance : LT BytePosition where
  lt a b := a.line < b.line ∨ (a.line = b.line ∧ a.column < b.column)

theorem le_def {a b : BytePosition} :
    a ≤ b ↔ a.line < b.line ∨ (a.line = b.line ∧ a.column ≤ b.column) := Iff.rfl

theorem lt_def {a b : BytePosition} :
    a < b ↔ a.line < b.line ∨ (a.line = b.line ∧ a.column < b.column) := Iff.rfl

instance (a b : BytePosition) : Decidable (a ≤ b) := decidable_of_iff _ le_def.symm

instance (a b : BytePosition) : Decidable (a < b) := decidable_of_iff _ lt_def.symm

theorem not_lt {a b : BytePosition} : ¬ a < b ↔ b ≤ a := by
  simp only [le_def, lt_def]; omega

/-- The comparison that sorts positions is the document order. -/
theorem compare_eq_lt_iff {a b : BytePosition} : compare a b = .lt ↔ a < b := by
  show (compare a.line b.line).then (compare a.column b.column) = .lt ↔ _
  rw [Ordering.then_eq_lt, Nat.compare_eq_lt, Nat.compare_eq_eq, Nat.compare_eq_lt, lt_def]

/-- The later of two positions. -/
def latest (a b : BytePosition) : BytePosition := if a ≤ b then b else a

/-- A position as messages show it, `line:column`. -/
def text (p : BytePosition) : String := s!"{p.line}:{p.column}"

end BytePosition

/-- The stretch of a buffer from `start` up to, but not including, `stop`. The two ends may come
in either order; see `ByteRange.normalized`. -/
structure ByteRange where
  start : BytePosition
  stop : BytePosition
  deriving DecidableEq, Repr

namespace ByteRange

/-- The empty range at a position. -/
def point (p : BytePosition) : ByteRange := ⟨p, p⟩

/-- The range with its earlier end first. -/
def normalized (r : ByteRange) : ByteRange := if r.stop < r.start then ⟨r.stop, r.start⟩ else r

/-- The number of lines that a range touches, both end lines counted. -/
def lineSpan (r : ByteRange) : Nat := r.normalized.stop.line - r.normalized.start.line + 1

theorem normalized_start_le_stop (r : ByteRange) : r.normalized.start ≤ r.normalized.stop := by
  simp only [normalized, BytePosition.le_def]
  split <;> simp_all only [BytePosition.lt_def] <;> omega

@[simp] theorem normalized_of_le {r : ByteRange} (h : r.start ≤ r.stop) : r.normalized = r := by
  simp [normalized, BytePosition.not_lt.2 h]

end ByteRange

end WorkspaceEditing
