import WorkspaceEditing.Proofs.Batch.Run
import WorkspaceEditing.Proofs.Batch.Splice

/-!
# Replacing a whole document

A formatter sends one edit, from the start of the document to the line behind the last, with the
formatted document as its new text. That line does not exist, so the end is taken back to the end of
the last line, and the whole text gives way to the new one. A line feed at the end of the new text
opens an empty last line in the buffer. It is removed, since writing the buffer adds a line feed of
its own, but not if the text ended in an empty line before: then it is kept, and the file ends in
one line feed more than the new text.

## Main definitions

* `Protocol.TextEdit.wholeDocument` — the edit that replaces a text from its start to the line
  behind its last.

## Main results

* `Text.edited_wholeDocument` — such an edit leaves the new text.
* `Applier.applyTextEdits_wholeDocument` — what it leaves of a buffer and of the contents of the
  buffer's file.
-/

namespace WorkspaceEditing

open Protocol

namespace Protocol.TextEdit

/-- The edit that replaces a text from its start to the line behind its last. -/
def wholeDocument (t newText : Text) : TextEdit := ⟨⟨⟨0, 0⟩, ⟨t.lineCount, 0⟩⟩, newText⟩

@[simp] theorem normalized_wholeDocument (t newText : Text) :
    (wholeDocument t newText).normalized = wholeDocument t newText := by
  have hbefore : (⟨t.lineCount, 0⟩ : Position).before ⟨0, 0⟩ = false := by simp [Position.before]
  simp only [normalized, Range.normalized, wholeDocument, hbefore]
  rfl

/-- The line behind the last is taken back to the end of the text, so the whole text is replaced. -/
theorem replacementIn_wholeDocument (e : Encoding) (t newText : Text) :
    (wholeDocument t newText).replacementIn e t =
      ⟨⟨.origin, t.extent⟩, newText.unifyLineBreaks.lines⟩ := by
  have hpos : 0 < t.lineCount := by
    rw [Text.lineCount_eq]
    omega
  have hstart : Position.decode (t.line? 0) ⟨0, 0⟩ e = .origin := by
    obtain ⟨line, hline⟩ := Text.exists_line? hpos
    rw [hline, Position.decode_of_line? (t := t) hline, Text.upTo_start]
    rfl
  have hle : BytePosition.origin ≤ t.extent := Text.extent_le_append [] t
  have hbehind : t.lineCount - 1 < t.lineCount := by omega
  simp only [replacementIn, wholeDocument, if_neg (Nat.not_le.2 hpos), hstart,
    Position.line_decode, if_pos hbehind, Text.normalizeLineBreaks_eq, BytePosition.latest,
    if_pos hle]

end Protocol.TextEdit

/-- Replacing the whole document leaves the new text. -/
theorem Text.edited_wholeDocument (e : Encoding) (t newText : Text) :
    t.edited e (applicationOrder [.wholeDocument t newText]) = newText.unifyLineBreaks := by
  have horder : applicationOrder [TextEdit.wholeDocument t newText] =
      [TextEdit.wholeDocument t newText] := by
    simp [applicationOrder, insertInOrder]
  have hamended := amended_eq (s := []) (m := t)
    (congrArg Replacement.range (TextEdit.replacementIn_wholeDocument e t newText)) []
  rw [List.nil_append, List.append_nil, List.nil_append, List.append_nil,
    TextEdit.replacementIn_wholeDocument, ofLines_lines] at hamended
  rw [horder, edited, List.foldl_cons, List.foldl_nil, TextEdit.replacementIn_wholeDocument,
    hamended]

@[simp] theorem Buffer.fixesEndOfLine_afterBatch (config : Config) (e : Encoding) (b : Buffer)
    (edits : List TextEdit) : (b.afterBatch config e edits).fixesEndOfLine = b.fixesEndOfLine := by
  have htrimmed (b' : Buffer) : b'.trimmed.fixesEndOfLine = b'.fixesEndOfLine := by
    unfold Buffer.trimmed
    split <;> rfl
  unfold Buffer.afterBatch
  dsimp only
  split_ifs <;> simp [Buffer.repaired, htrimmed]

/-- Replacing the whole document of a buffer by a text that ends in a line break, in the standard
configuration. If the text of the buffer did not end in an empty line, the buffer's file will hold
the new text, or nothing if that is a single line break; else it will hold a line break more. -/
theorem Applier.applyTextEdits_wholeDocument {w : World Editor} {id : BufferId} {b : Buffer}
    (hbuffer : w.host.buffer? id = some b) (hfixes : b.fixesEndOfLine = true) (e : Encoding)
    {newText : Text} (hbreaks : '\r' ∉ newText) (hend : newText.endsInBreak = true) :
    ∃ w' b', applyTextEdits ⟨Editor.asHost, .standard, e⟩ id [.wholeDocument b.text newText] w =
        .ok () w' ∧ w'.host.buffer? id = some b' ∧
      (b.text.endsInBreak = false → b'.text = newText.dropLast ∧
        b'.contents = if newText = ['\n'] then [] else newText) ∧
      (b.text.endsInBreak = true → b'.text = newText ∧ b'.contents = newText ++ ['\n']) := by
  obtain ⟨w', hrun, hafter⟩ :=
    buffer?_applyTextEdits .standard e hbuffer (List.cons_ne_nil (.wholeDocument b.text newText) [])
  have htext := Buffer.text_afterBatch .standard e b [.wholeDocument b.text newText]
  have hfixes' := Buffer.fixesEndOfLine_afterBatch .standard e b [.wholeDocument b.text newText]
  have htrim : Config.standard.trimFinalNewline = true := rfl
  rw [Text.edited_wholeDocument, Text.unifyLineBreaks_of_not_mem hbreaks, Text.trimmed, htrim,
    hfixes] at htext
  rw [hfixes] at hfixes'
  generalize b.afterBatch .standard e [.wholeDocument b.text newText] = b' at hafter htext hfixes'
  obtain ⟨body, rfl⟩ := List.getLast?_eq_some_iff.1 (of_decide_eq_true hend)
  refine ⟨w', b', hrun, hafter, ?_, ?_⟩
  · intro hempty
    have hbody : b'.text = body := by
      simpa [hempty, Text.withoutFinalBreak, hend] using htext
    refine ⟨by simp [hbody], ?_⟩
    by_cases hnil : body = []
    · simp [Buffer.contents, hbody, hnil]
    · simp [Buffer.contents, hbody, hnil, hfixes']
  · intro hempty
    have hwhole : b'.text = body ++ ['\n'] := by simpa [hempty] using htext
    exact ⟨hwhole, by simp [Buffer.contents, hwhole, hfixes']⟩

/-- One line is formatted: writing the buffer writes the new text. -/
theorem Applier.applyTextEdits_wholeDocument_line :
    let t : Text := ['a']
    let w : World Editor := ⟨(Editor.empty.insertBuffer ⟨[]⟩ t).2, .empty⟩
    w.host.buffer? ⟨1⟩ = some (Buffer.new ⟨1⟩ ⟨[]⟩ t) ∧
      (Buffer.new ⟨1⟩ ⟨[]⟩ t).fixesEndOfLine = true ∧
      '\r' ∉ ['x', '\n'] ∧ Text.endsInBreak ['x', '\n'] = true ∧
      ∃ w' b', applyTextEdits ⟨Editor.asHost, .standard, .utf16⟩ ⟨1⟩
          [.wholeDocument t ['x', '\n']] w = .ok () w' ∧
        w'.host.buffer? ⟨1⟩ = some b' ∧ b'.text = ['x'] ∧ b'.contents = ['x', '\n'] := by
  intro t w
  have hbuffer : w.host.buffer? ⟨1⟩ = some (Buffer.new ⟨1⟩ ⟨[]⟩ t) := rfl
  have hbreaks : '\r' ∉ ['x', '\n'] := by decide
  have hend : Text.endsInBreak ['x', '\n'] = true := by decide
  obtain ⟨w', b', hrun, hafter, hline, -⟩ :=
    applyTextEdits_wholeDocument hbuffer rfl .utf16 hbreaks hend
  exact ⟨hbuffer, rfl, hbreaks, hend, w', b', hrun, hafter, hline (by decide)⟩

/-- A line and an empty one are formatted: the new text has a line break less, but the buffer still
ends in an empty line, and writing it writes a line break more than the new text has. -/
theorem Applier.applyTextEdits_wholeDocument_keeps_empty_line :
    let t : Text := ['a', '\n']
    let w : World Editor := ⟨(Editor.empty.insertBuffer ⟨[]⟩ t).2, .empty⟩
    ∃ w' b', applyTextEdits ⟨Editor.asHost, .standard, .utf16⟩ ⟨1⟩
        [.wholeDocument t ['x', '\n']] w = .ok () w' ∧
      w'.host.buffer? ⟨1⟩ = some b' ∧ b'.fixesEndOfLine = true ∧
      b'.text ≠ List.dropLast ['x', '\n'] ∧ b'.contents = ['x', '\n', '\n'] := by
  intro t w
  have hbuffer : w.host.buffer? ⟨1⟩ = some (Buffer.new ⟨1⟩ ⟨[]⟩ t) := rfl
  obtain ⟨w', hrun, hafter⟩ := buffer?_applyTextEdits .standard .utf16 hbuffer
    (List.cons_ne_nil (.wholeDocument t ['x', '\n']) [])
  exact ⟨w', _, hrun, hafter, by decide, by decide, by decide⟩

end WorkspaceEditing
