import WorkspaceEditing.Proofs.Host.Account
import WorkspaceEditing.Proofs.Text.Exact

/-!
# What one edit replaces

An edit asks for a replacement in the text that it finds, and the replacement is a function of that
text alone. Whatever places the edit names, existing or not, in order or not, the range that comes
out of them lies between two places of the text and at least one line takes its place, so the
editor carries the replacement out.

## Main definitions

* `Protocol.TextEdit.replacementIn` — the replacement that an edit asks for in a text.
* `Protocol.TextEdit.carried` — where the edit leaves a cursor that is kept track of.

## Main results

* `Protocol.TextEdit.fits_replacementIn` — the replacement fits, whatever the edit is.
* `Applier.applyTextEdit_does` — applying the edit is a single call to carry the replacement out.
-/

namespace WorkspaceEditing

open Protocol

/-! ## The end of a text -/

namespace Text

/-- The end of the last line is the end of the text. -/
theorem extent_eq_lineCount (t : Text) :
    t.extent = ⟨t.lineCount - 1, ((t.line? (t.lineCount - 1)).map byteLength).getD 0⟩ := by
  have hline : t.line? t.extent.line = some t.lastLine := by
    have := line?_append t []
    simpa [firstLine] using this
  rw [lineCount_eq_extent, Nat.add_sub_cancel, hline]
  rfl

theorem line?_eq_none_iff {t : Text} {n : Nat} : t.line? n = none ↔ t.lineCount ≤ n :=
  List.getElem?_eq_none_iff

theorem exists_line? {t : Text} {n : Nat} (h : n < t.lineCount) : ∃ line, t.line? n = some line :=
  ⟨_, List.getElem?_eq_getElem h⟩

end Text

/-! ## The replacement of an edit -/

namespace Protocol.TextEdit

/-- The replacement that an edit, its range in order, asks for in a text. Text for a line behind
the last is put behind the end, on a line of its own. -/
def replacementIn (edit : TextEdit) (e : Encoding) (t : Text) : Replacement :=
  let newText := edit.newText.normalizeLineBreaks
  if t.lineCount ≤ edit.range.start.line then ⟨.point t.extent, [] :: newText.lines⟩
  else
    let start := edit.range.start.decode (t.line? edit.range.start.line) e
    let stopLine := t.line? edit.range.stop.line
    let stop := edit.range.stop.decode stopLine e
    let (stop, newLines) :=
      if t.lineCount - 1 < stop.line then (t.extent, newText.lines)
      else Applier.cutAtLineEnd stop stopLine newText
    ⟨⟨start, start.latest stop⟩, newLines⟩

/-- Where an edit leaves a cursor that is kept track of. -/
def carried (edit : TextEdit) (e : Encoding) (t : Text) (cursor : BytePosition) : BytePosition :=
  if t.lineCount ≤ edit.range.start.line then cursor
  else cursor.shifted (edit.replacementIn e t).range (edit.replacementIn e t).newLines

end Protocol.TextEdit

/-! ## The replacement fits -/

namespace Applier

theorem cutAtLineEnd_lines_ne_nil (stop : BytePosition) (line : Option Text) (newText : Text) :
    (cutAtLineEnd stop line newText).2 ≠ [] := by
  simp only [cutAtLineEnd]
  split
  · rename_i h
    obtain ⟨s, hs⟩ := List.getLast?_eq_some_iff.1 h.2
    rw [hs, Text.lines_append_break, List.dropLast_concat]
    exact Text.lines_ne_nil s
  · exact Text.lines_ne_nil newText

end Applier

/-- A range between two places, cut so that it does not end before it starts, fits. -/
theorem Replacement.fits_latest {t s x s' x' : Text} (hs : t = s ++ x) (hs' : t = s' ++ x')
    (newLines : List Text) :
    Replacement.Fits ⟨⟨s.extent, s.extent.latest s'.extent⟩, newLines⟩ t := by
  by_cases hle : s.extent ≤ s'.extent
  · obtain ⟨m, rfl⟩ := Text.prefix_of_extent_le ⟨x, hs.symm⟩ ⟨x', hs'.symm⟩ hle
    exact ⟨s, m, x', hs', by simp [BytePosition.latest, hle]⟩
  · exact ⟨s, [], x, by simp [hs], by simp [BytePosition.latest, hle]⟩

namespace Protocol.TextEdit

variable (edit : TextEdit) (e : Encoding) (t : Text)

/-- What an edit asks for fits the text, whatever places it names. -/
theorem fits_replacementIn : (edit.replacementIn e t).Fits t := by
  simp only [replacementIn]
  split
  · exact ⟨t, [], [], by simp, by simp [ByteRange.point]⟩
  · rename_i hstart
    obtain ⟨line, hline⟩ := Text.exists_line? (Nat.lt_of_not_le hstart)
    obtain ⟨s, x, hs, hdecode⟩ := Position.exists_decode hline e
    simp only [hline, hdecode]
    split
    · exact Replacement.fits_latest hs (List.append_nil t).symm _
    · rename_i hstop
      cases hstopLine : t.line? edit.range.stop.line with
      | none =>
        rw [Text.line?_eq_none_iff] at hstopLine
        rw [Position.line_decode] at hstop
        omega
      | some stopLine =>
        obtain ⟨s', x', hs', hdecode'⟩ := Position.exists_decode hstopLine e
        have hcut : (Applier.cutAtLineEnd s'.extent (some stopLine)
            edit.newText.normalizeLineBreaks).1 = s'.extent := by
          have hle : s'.extent.column ≤ stopLine.byteLength := by
            rw [← hdecode']
            exact e.column_le stopLine _
          simp [Applier.cutAtLineEnd, Nat.min_eq_left hle]
        rw [hdecode', hcut]
        exact Replacement.fits_latest hs hs' _

end Protocol.TextEdit

/-! ## Applying an edit -/

namespace Applier

section

variable {σ : Type} {a : Applier σ} (account : a.host.Account) {w : World Editor} {id : BufferId}
  {b : Buffer}

theorem lineLength_does (h : w.host.buffer? id = some b) (index : Nat) :
    account.Does (a.lineLength id index) [] (((b.text.line? index).map Text.byteLength).getD 0) w :=
  account.look_bind (account.line h index) (account.pure _)

theorem append_does (h : w.host.buffer? id = some b) (newLines : List Text) :
    account.Does (a.append id b.text.lineCount newLines)
      [.setText id (.point b.text.extent) ([] :: newLines)] () w := by
  have hcount : b.text.lineCount ≠ 0 := by rw [Text.lineCount_eq]; omega
  have hfits : Replacement.Fits ⟨.point b.text.extent, [] :: newLines⟩ b.text :=
    ⟨b.text, [], [], by simp, by simp [ByteRange.point]⟩
  unfold append
  refine account.look_bind (lineLength_does account h _) ?_
  rw [← Text.extent_eq_lineCount, if_neg hcount]
  exact account.setText h hfits

/-- The line on which an edit ends is the one on which it starts, or is read. -/
theorem stopText_does (h : w.host.buffer? id = some b) (start stop : Nat) {α : Type}
    {next : Option Text → HostAction σ α} {calls : List Call} {value : α}
    (hnext : account.Does (next (b.text.line? stop)) calls value w) :
    account.Does (if stop = start then pure (b.text.line? start) >>= next
      else a.host.line id stop >>= next) calls value w := by
  split_ifs with heq
  · subst heq
    exact account.look_bind (account.pure _) hnext
  · exact account.look_bind (account.line h stop) hnext

/-- Applying an edit is a single call to carry out the replacement that it asks for. -/
theorem applyTextEdit_does (h : w.host.buffer? id = some b) (edit : TextEdit)
    (cursor : Option BytePosition) :
    account.Does (a.applyTextEdit id edit cursor)
      [.setText id (edit.replacementIn a.encoding b.text).range
        (edit.replacementIn a.encoding b.text).newLines]
      (cursor.map (edit.carried a.encoding b.text)) w := by
  have hset := account.setText h (edit.fits_replacementIn a.encoding b.text)
  unfold applyTextEdit
  refine account.look_bind (account.lineCount h) ?_
  by_cases hstart : b.text.lineCount ≤ edit.range.start.line
  · have hcarried : edit.carried a.encoding b.text = fun c => c := by
      funext c
      rw [TextEdit.carried, if_pos hstart]
    have hr : edit.replacementIn a.encoding b.text =
        ⟨.point b.text.extent, [] :: edit.newText.normalizeLineBreaks.lines⟩ := by
      simp only [TextEdit.replacementIn, if_pos hstart]
    rw [if_pos hstart, hcarried, Option.map_id', hr]
    exact account.bind (append_does account h _) (account.pure _)
  · have hcarried : edit.carried a.encoding b.text = fun c =>
        c.shifted (edit.replacementIn a.encoding b.text).range
          (edit.replacementIn a.encoding b.text).newLines := by
      funext c
      rw [TextEdit.carried, if_neg hstart]
    rw [if_neg hstart, hcarried]
    refine account.look_bind (account.line h _) ?_
    dsimp only
    apply stopText_does account h
    by_cases hstop : b.text.lineCount - 1 <
        (edit.range.stop.decode (b.text.line? edit.range.stop.line) a.encoding).line
    · rw [if_pos hstop]
      have hr : edit.replacementIn a.encoding b.text =
          ⟨⟨edit.range.start.decode (b.text.line? edit.range.start.line) a.encoding,
            (edit.range.start.decode (b.text.line? edit.range.start.line) a.encoding).latest
              b.text.extent⟩, edit.newText.normalizeLineBreaks.lines⟩ := by
        simp only [TextEdit.replacementIn, if_neg hstart, if_pos hstop]
      rw [hr] at hset ⊢
      refine account.look_bind (lineLength_does account h _) ?_
      rw [← Text.extent_eq_lineCount]
      exact account.bind hset (account.pure _)
    · rw [if_neg hstop]
      have hr : edit.replacementIn a.encoding b.text =
          ⟨⟨edit.range.start.decode (b.text.line? edit.range.start.line) a.encoding,
            (edit.range.start.decode (b.text.line? edit.range.start.line) a.encoding).latest
              (cutAtLineEnd (edit.range.stop.decode (b.text.line? edit.range.stop.line) a.encoding)
                (b.text.line? edit.range.stop.line) edit.newText.normalizeLineBreaks).1⟩,
            (cutAtLineEnd (edit.range.stop.decode (b.text.line? edit.range.stop.line) a.encoding)
                (b.text.line? edit.range.stop.line) edit.newText.normalizeLineBreaks).2⟩ := by
        simp only [TextEdit.replacementIn, if_neg hstart, if_neg hstop]
      rw [hr] at hset ⊢
      exact account.bind hset (account.pure _)

end

end Applier

end WorkspaceEditing
