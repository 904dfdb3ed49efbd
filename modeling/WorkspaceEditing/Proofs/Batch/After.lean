import WorkspaceEditing.Proofs.Batch.Edit

/-!
# What a batch leaves

A batch of text edits is applied edit by edit, the final empty line is removed where that is asked
for, lost letter marks are set again, and the cursor is put back. What is left of the buffer, and of
the cursors in it, is a function of the buffer, the batch and the configuration.

## Main definitions

* `Text.edited`, `Buffer.edited` — the text and the buffer after edits in the order given.
* `Text.carried`, `Text.kept` — where those edits leave a cursor that is kept track of, and another.
* `Text.trimmed`, `Buffer.trimmed` — without an empty last line that was not there before.
* `Buffer.repaired` — with lost marks set again.
* `Buffer.afterBatch`, `Buffer.keptAfterBatch` — what a batch leaves of the buffer and of the
  cursors in it.

## Main results

* `Buffer.text_afterBatch` — the text that a batch leaves.
* `Text.amended_finalBreak` — what stands before the last line feed is left if it is taken away.
-/

namespace WorkspaceEditing

open Protocol

/-! ## The buffer that a batch leaves -/

/-- The text after edits, each applied to the text that the one before has left. -/
def Text.edited (e : Encoding) (t : Text) (edits : List TextEdit) : Text :=
  edits.foldl (fun t edit => t.amended (edit.replacementIn e t)) t

/-- The buffer after edits. -/
def Buffer.edited (e : Encoding) (b : Buffer) (edits : List TextEdit) : Buffer :=
  edits.foldl (fun b edit => b.amended (edit.replacementIn e b.text)) b

/-- Where edits of a text leave a cursor that is kept track of. -/
def Text.carried (e : Encoding) : Text → List TextEdit → BytePosition → BytePosition
  | _, [], cursor => cursor
  | t, edit :: rest, cursor =>
    carried e (t.amended (edit.replacementIn e t)) rest (edit.carried e t cursor)

/-- Where edits of a text leave a cursor that is not kept track of: it is kept inside each of the
texts that they make. -/
def Text.kept (e : Encoding) : Text → List TextEdit → BytePosition → BytePosition
  | _, [], cursor => cursor
  | t, edit :: rest, cursor =>
    let amended := t.amended (edit.replacementIn e t)
    kept e amended rest (amended.closest cursor)

/-- Whether a text ends in a line feed, so that its last line is empty. -/
def Text.endsInBreak (t : Text) : Bool := t.getLast? = some '\n'

/-- The text without a line feed at its end. -/
def Text.withoutFinalBreak (t : Text) : Text := if t.endsInBreak then t.dropLast else t

/-- A text that edits have made of `t`, without an empty last line that they have brought in, if
writing the buffer adds a line break and the configuration asks for it. -/
def Text.trimmed (config : Config) (fixesEndOfLine : Bool) (t out : Text) : Text :=
  if config.trimFinalNewline && fixesEndOfLine && !t.endsInBreak then out.withoutFinalBreak else out

/-- The replacement that takes the last line feed away. -/
def Text.finalBreak (t : Text) : Replacement :=
  ⟨⟨⟨t.lineCount - 1 - 1, ((t.line? (t.lineCount - 1 - 1)).map byteLength).getD 0⟩,
    ⟨t.lineCount - 1, 0⟩⟩, [[]]⟩

/-- The buffer without an empty last line, if writing it adds a line break. -/
def Buffer.trimmed (b : Buffer) : Buffer :=
  if b.fixesEndOfLine && b.text.endsInBreak then b.amended b.text.finalBreak else b

/-- The marks that a buffer lacks of those that were saved, pulled back inside its text. -/
def Buffer.lost (b : Buffer) (saved : List Mark) : List Mark :=
  (saved.filter fun m => !b.marks.names.contains m.name).map fun m =>
    m.clamped b.text.lineCount fun line => ((b.text.line? line).map Text.byteLength).getD 0

/-- The buffer with the lost ones of the saved marks set again. -/
def Buffer.repaired (b : Buffer) (saved : List Mark) : Buffer :=
  { b with marks := (b.lost saved).foldl (fun all m => Marks.set m all) b.marks }

/-- The buffer that a batch leaves. -/
def Buffer.afterBatch (config : Config) (e : Encoding) (b : Buffer) (edits : List TextEdit) :
    Buffer :=
  let edited := Buffer.edited e { b with listed := true } (applicationOrder edits)
  let trimmed := if config.trimFinalNewline && !b.text.endsInBreak then edited.trimmed else edited
  if config.restoreMarks then trimmed.repaired (b.marks.filter (·.isLocalLetter)) else trimmed

/-- Where the removal of an empty last line leaves a cursor. -/
def Buffer.keptTrimmed (b : Buffer) (cursor : BytePosition) : BytePosition :=
  if b.fixesEndOfLine && b.text.endsInBreak then b.trimmed.text.closest cursor else cursor

/-- Where a batch leaves a cursor that is not kept track of. -/
def Buffer.keptAfterBatch (config : Config) (e : Encoding) (b : Buffer) (edits : List TextEdit)
    (cursor : BytePosition) : BytePosition :=
  let order := applicationOrder edits
  let kept := b.text.kept e order cursor
  if config.trimFinalNewline && !b.text.endsInBreak then
    (Buffer.edited e { b with listed := true } order).keptTrimmed kept
  else kept

@[simp] theorem Buffer.text_edited (e : Encoding) (b : Buffer) (edits : List TextEdit) :
    (b.edited e edits).text = b.text.edited e edits := by
  induction edits generalizing b with
  | nil => rfl
  | cons edit rest ih => exact ih _

@[simp] theorem Buffer.id_edited (e : Encoding) (b : Buffer) (edits : List TextEdit) :
    (b.edited e edits).id = b.id := by
  induction edits generalizing b with
  | nil => rfl
  | cons edit rest ih => exact ih _

@[simp] theorem Buffer.id_trimmed (b : Buffer) : b.trimmed.id = b.id := by
  unfold Buffer.trimmed
  split <;> rfl

@[simp] theorem Buffer.path_edited (e : Encoding) (b : Buffer) (edits : List TextEdit) :
    (b.edited e edits).path = b.path := by
  induction edits generalizing b with
  | nil => rfl
  | cons edit rest ih => exact ih _

@[simp] theorem Buffer.path_trimmed (b : Buffer) : b.trimmed.path = b.path := by
  unfold Buffer.trimmed
  split <;> rfl

@[simp] theorem Buffer.fixesEndOfLine_edited (e : Encoding) (b : Buffer) (edits : List TextEdit) :
    (b.edited e edits).fixesEndOfLine = b.fixesEndOfLine := by
  induction edits generalizing b with
  | nil => rfl
  | cons edit rest ih => exact ih _

/-- The editor with the cursor of the focused window, which shows a buffer, at a position that the
buffer's text has. -/
def Editor.withCursor (e : Editor) (b : Buffer) (p : BytePosition) : Editor :=
  match e.focusedWindow? with
  | some win => if b.text.holds p then e.putWindow { win with cursor := p } else e
  | none => e

/-- The cursor that is kept track of: that of the focused window, if the window shows the buffer and
the configuration asks for it. -/
def Editor.tracked? (e : Editor) (config : Config) (id : BufferId) : Option BytePosition :=
  if config.restoreCursor ∧ e.focusedBuffer? = some id then e.cursor? else none

@[simp] theorem Editor.buffer?_withCursor (e : Editor) (b : Buffer) (p : BytePosition)
    (id : BufferId) : (e.withCursor b p).buffer? id = e.buffer? id := by
  unfold Editor.withCursor
  split
  · split <;> rfl
  · rfl

/-- A position that the buffer has becomes that of the focused window. -/
theorem Editor.cursor?_withCursor {e : Editor} {win : Window} (h : e.focusedWindow? = some win)
    {b : Buffer} {p : BytePosition} (hp : b.text.holds p = true) :
    (e.withCursor b p).cursor? = some p := by
  have hput : (e.putWindow { win with cursor := p }).focusedWindow? =
      some { win with cursor := p } := Editor.focusedWindow?_putWindow h rfl
  simp only [Editor.withCursor, h, hp, if_true, Editor.cursor?, hput, Option.map_some]

/-! ## The last line break -/

namespace Text

/-- What does not end in a line feed of its own keeps the one that it had. -/
@[simp] theorem trimmed_self (config : Config) (fixes : Bool) (t : Text) :
    t.trimmed config fixes t = t := by
  unfold trimmed withoutFinalBreak
  cases t.endsInBreak <;> simp

/-- The line feed at the end of a text is at the end of its second part, unless that is empty. -/
theorem trimmed_append (config : Config) (fixes : Bool) (t s : Text) {x : Text} (hx : x ≠ []) :
    t.trimmed config fixes (s ++ x) = s ++ t.trimmed config fixes x := by
  unfold trimmed withoutFinalBreak endsInBreak
  rw [List.getLast?_append_of_ne_nil s hx, List.dropLast_append_of_ne_nil hx]
  split_ifs <;> rfl

theorem lineCount_append_break (s : Text) : lineCount (s ++ ['\n']) = s.lineCount + 1 := by
  simp [lineCount, lines_append_break]

/-- A text without a last line is empty or ends in a line feed. -/
theorem eq_nil_or_endsInBreak {t : Text} (h : t.lastLine = []) : t = [] ∨ t.endsInBreak = true := by
  rcases List.eq_nil_or_concat' t with rfl | ⟨s, c, rfl⟩
  · exact .inl rfl
  · by_cases hc : c = '\n'
    · exact .inr (by simp [endsInBreak, hc])
    · rw [lastLine_append_of_not_mem (by simp [Ne.symm hc])] at h
      simp at h

/-- Several lines, the last of them empty: that is a line feed at the end. -/
theorem endsInBreak_iff {t : Text} :
    t.endsInBreak = true ↔ ¬ t.lineCount < 2 ∧ t.line? (t.lineCount - 1) = some [] := by
  constructor
  · intro h
    obtain ⟨s, rfl⟩ := List.getLast?_eq_some_iff.1 (of_decide_eq_true h)
    have hpos : 0 < lineCount s := by rw [lineCount_eq]; omega
    refine ⟨by rw [lineCount_append_break]; omega, ?_⟩
    rw [lineCount_append_break, Nat.add_sub_cancel, line?, lines_append_break]
    simp [lineCount]
  · rintro ⟨hcount, hline⟩
    have hlast : t.lastLine = [] := by
      have hext := line?_append t []
      rw [List.append_nil, show t.extent.line = t.lineCount - 1 by rw [lineCount_eq_extent]; rfl,
        hline] at hext
      simpa [firstLine] using hext.symm
    have hne : t ≠ [] := by
      rintro rfl
      exact hcount (by decide)
    exact (eq_nil_or_endsInBreak hlast).resolve_left hne

theorem range_finalBreak (s : Text) :
    (finalBreak (s ++ ['\n'])).range = ⟨s.extent, extent (s ++ ['\n'])⟩ := by
  have hline : line? (s ++ ['\n']) (s.lineCount - 1) = some s.lastLine := by
    have hext := line?_append s ['\n']
    rwa [show firstLine ['\n'] = [] from rfl, List.append_nil,
      show s.extent.line = s.lineCount - 1 by rw [lineCount_eq_extent]; rfl] at hext
  have hstart : (⟨s.lineCount - 1, s.lastLine.byteLength⟩ : BytePosition) = s.extent := by
    rw [lineCount_eq_extent]
    rfl
  have hstop : (⟨s.lineCount, 0⟩ : BytePosition) = extent (s ++ ['\n']) := by
    rw [extent_append, lineCount_eq_extent]
    rfl
  simp only [finalBreak, lineCount_append_break, Nat.add_sub_cancel, hline, Option.map_some,
    Option.getD_some, hstart, hstop]

/-- The last line feed can be taken away, -/
theorem fits_finalBreak {t : Text} (h : t.endsInBreak = true) : t.finalBreak.Fits t := by
  obtain ⟨s, rfl⟩ := List.getLast?_eq_some_iff.1 (of_decide_eq_true h)
  exact ⟨s, ['\n'], [], by simp, range_finalBreak s⟩

/-- and leaves what stands before it. -/
theorem amended_finalBreak {t : Text} (h : t.endsInBreak = true) :
    t.amended t.finalBreak = t.dropLast := by
  obtain ⟨s, rfl⟩ := List.getLast?_eq_some_iff.1 (of_decide_eq_true h)
  have := amended_eq (range_finalBreak s) []
  rw [List.append_nil] at this
  rw [this, List.dropLast_concat]
  simp [finalBreak, ofLines]

end Text

@[simp] theorem Buffer.id_afterBatch (config : Config) (e : Encoding) (b : Buffer)
    (edits : List TextEdit) : (b.afterBatch config e edits).id = b.id := by
  unfold Buffer.afterBatch
  split_ifs <;> simp [Buffer.repaired]

@[simp] theorem Buffer.path_afterBatch (config : Config) (e : Encoding) (b : Buffer)
    (edits : List TextEdit) : (b.afterBatch config e edits).path = b.path := by
  unfold Buffer.afterBatch
  split_ifs <;> simp [Buffer.repaired]

/-- The text that a batch leaves is that of its edits, less an empty last line. -/
theorem Buffer.text_afterBatch (config : Config) (e : Encoding) (b : Buffer)
    (edits : List TextEdit) :
    (b.afterBatch config e edits).text =
      b.text.trimmed config b.fixesEndOfLine (b.text.edited e (applicationOrder edits)) := by
  have htrimmed (b' : Buffer) : b'.trimmed.text =
      if b'.fixesEndOfLine then b'.text.withoutFinalBreak else b'.text := by
    unfold Buffer.trimmed Text.withoutFinalBreak
    cases b'.fixesEndOfLine with
    | false => rfl
    | true =>
      cases hend : b'.text.endsInBreak with
      | false => rfl
      | true => exact Text.amended_finalBreak hend
  have hmarks (b' : Buffer) (saved : List Mark) :
      (if config.restoreMarks then b'.repaired saved else b').text = b'.text := by
    split <;> rfl
  rw [Buffer.afterBatch, hmarks, Text.trimmed]
  cases config.trimFinalNewline with
  | false => simp
  | true =>
    cases b.text.endsInBreak with
    | true => simp
    | false => simp [htrimmed]

end WorkspaceEditing
