import WorkspaceEditing.Proofs.Batch.Followed
import WorkspaceEditing.Proofs.Session.Invariant

/-!
# Marks in a session

In every session the marks of each buffer are in the order of their names. A batch of text edits
therefore leaves every letter mark set: the editor has taken it along, or it is set again where it
was or as near to it as the final text allows. A mark of any name whose line a valid batch leaves
alone is on that line afterwards.

## Main results

* `Session.marksOrdered_run` — the marks of every open buffer are in order.
* `Applier.applyTextEdits_marks` — what a batch makes of the marks of its buffer.
* `Applier.applyTextEdits_follows` — a mark follows a line that no edit touches.
-/

namespace WorkspaceEditing

open Protocol

namespace Editor

variable {e e' : Editor} {id : BufferId}

/-- The marks of every open buffer are in the order of their names. -/
def MarksOrdered (e : Editor) : Prop := ∀ b ∈ e.buffers, b.marks.Ordered

namespace MarksOrdered

variable (h : e.MarksOrdered)
include h

theorem of_buffer? {b : Buffer} (hb : e.buffer? id = some b) : b.marks.Ordered :=
  h b (List.mem_of_find?_eq_some hb)

theorem putBuffer {b : Buffer} (hb : b.marks.Ordered) : (e.putBuffer b).MarksOrdered := by
  intro other hother
  obtain ⟨old, hold, rfl⟩ := List.mem_map.1 hother
  split
  · exact hb
  · exact h old hold

theorem setText {r : ByteRange} {newLines : List Text} (hset : e.setText id r newLines = .ok e') :
    e'.MarksOrdered := by
  obtain ⟨b, changed, hb, hreplace, rfl⟩ := cases_of_setText hset
  simp only [Buffer.replace?, Option.bind_eq_bind, Option.bind_eq_some_iff] at hreplace
  obtain ⟨text, -, hreplace⟩ := hreplace
  cases hreplace
  exact h.putBuffer ((h.of_buffer? hb).followed _ _ _)

/-- A change of one buffer that keeps its marks in order. -/
theorem of_bind {f : Buffer → Buffer}
    (hset : (e.buffer id >>= fun b => pure (e.putBuffer (f b))) = .ok e')
    (hf : ∀ b, b.marks.Ordered → (f b).marks.Ordered) : e'.MarksOrdered := by
  obtain ⟨b, hb, heq⟩ := exists_of_bind_buffer hset
  obtain rfl := Except.ok.inj heq
  exact h.putBuffer (hf b (h.of_buffer? hb))

end MarksOrdered

end Editor

namespace Session

/-- Every operation of the editor keeps the marks in order. -/
theorem invariant_marksOrdered : Invariant Editor.MarksOrdered where
  insertBuffer e path text h b hb := by
    rcases List.mem_append.1 hb with hb | hb
    · exact h b hb
    · rw [List.mem_singleton.1 hb]
      exact List.Pairwise.nil
  openWindow e id win e' hopen h := by
    obtain ⟨b, -, hbuffers, -⟩ := Editor.cases_of_openWindow hopen
    intro b hb
    exact h b (hbuffers ▸ hb)
  setFixesEndOfLine e id fixes e' hset h := h.of_bind hset fun _ hb => hb
  setListed e id e' hset h := h.of_bind hset fun _ hb => hb
  setText e id r newLines e' hset h := h.setText hset
  setCursor e p e' hset h := by
    rcases Editor.cases_of_setCursor hset with rfl | ⟨win, b, -, -, -, rfl⟩
    · exact h
    · exact h
  setMarks e id ms e' hset h := h.of_bind hset fun _ hb => hb.foldl_set ms
  deleteBuffer e id e' hdelete h := by
    obtain ⟨hbuffers, -⟩ := Editor.cases_of_deleteBuffer hdelete
    intro b hb
    rw [hbuffers] at hb
    exact h b (List.mem_of_mem_filter hb)
  setWindowBuffer e win id e' hset h := by
    obtain ⟨w, b, -, rfl⟩ := Editor.cases_of_setWindowBuffer hset
    exact h

/-- In every session the marks of every open buffer are in order. -/
theorem marksOrdered_run (disk : Disk) (steps : List Step) :
    (run ⟨.empty, disk⟩ steps).host.MarksOrdered :=
  invariant_marksOrdered.run steps (by simp [Editor.MarksOrdered, Editor.empty])

end Session

namespace Applier

/-- In every session, a batch of text edits loses no letter mark of its buffer, whatever the edits
are. Lines and columns of marks are numbers without a bound: where an editor keeps them in machine
words, this is so as long as no mark is moved beyond the last line that a word can count. -/
theorem applyTextEdits_marks {disk : Disk} {steps : List Session.Step} {w : World Editor}
    (hw : Session.run ⟨.empty, disk⟩ steps = w) {id : BufferId} {b : Buffer}
    (hbuffer : w.host.buffer? id = some b) {config : Config} (hconfig : config.restoreMarks = true)
    (e : Encoding) {edits : List TextEdit} (hedits : edits ≠ []) :
    ∃ w' b', applyTextEdits ⟨Editor.asHost, config, e⟩ id edits w = .ok () w' ∧
      w'.host.buffer? id = some b' ∧ b.MarksKept b' (b.replacements config e edits) := by
  have hordered : b.marks.Ordered := by
    have hmarks := Session.marksOrdered_run disk steps
    rw [hw] at hmarks
    exact hmarks.of_buffer? hbuffer
  obtain ⟨host, htouches, hafter, hrun⟩ := applyTextEdits_ok config e hbuffer hedits
  refine ⟨_, b.afterBatch config e edits, hrun, ?_,
    Buffer.marksKept_afterBatch hordered hconfig e hedits⟩
  cases w.host.tracked? config id with
  | none => exact hafter
  | some p => exact (Editor.buffer?_withCursor host _ _ id).trans hafter

/-- The last lines of a buffer are deleted by two edits that overlap and go past the end. One mark
stays, the letter mark on a deleted line is set again, and the other mark there is gone. -/
theorem applyTextEdits_marks_deletion :
    let b : Buffer := { Buffer.new ⟨1⟩ ⟨[]⟩ ['o', 'n', 'e', '\n', 't', '\n', '\n', 'x', 'y'] with
      marks := [⟨'1', ⟨3, 1⟩⟩, ⟨'a', ⟨3, 2⟩⟩, ⟨'b', ⟨0, 2⟩⟩] }
    let w := Session.run ⟨.empty, .empty⟩ [.editor (.insertBuffer b.path b.text),
      .editor (.call (.setMarks b.id b.marks))]
    let edits : List TextEdit := [⟨⟨⟨9, 9⟩, ⟨1, 0⟩⟩, []⟩, ⟨⟨⟨2, 5⟩, ⟨3, 1⟩⟩, []⟩]
    w.host.buffer? b.id = some b ∧
      ∃ w' b', applyTextEdits ⟨Editor.asHost, .standard, .utf16⟩ b.id edits w = .ok () w' ∧
        w'.host.buffer? b.id = some b' ∧
        b.MarksKept b' (b.replacements .standard .utf16 edits) := by
  intro b w edits
  have hbuffer : w.host.buffer? b.id = some b := by decide
  exact ⟨hbuffer, applyTextEdits_marks rfl hbuffer rfl .utf16 (by decide)⟩

/-- In every session, a mark whose line no edit of a valid batch touches follows that line: it is
still set, the only one of its name, in the same column of a line with the same text. The edits
have taken it there, and the removal of an empty last line leaves it where it is. -/
theorem applyTextEdits_follows {disk : Disk} {steps : List Session.Step} {w : World Editor}
    (hw : Session.run ⟨.empty, disk⟩ steps = w) {id : BufferId} {b : Buffer}
    (hbuffer : w.host.buffer? id = some b) (config : Config) (e : Encoding) {edits : List TextEdit}
    (hvalid : ValidBatch e b.text edits) {m : Mark} (hm : m ∈ b.marks) {line : Text}
    (hline : b.text.line? m.position.line = some line)
    (huntouched : ∀ edit ∈ edits, ¬ edit.TouchesLine m.position.line) :
    ∃ w' b' m', applyTextEdits ⟨Editor.asHost, config, e⟩ id edits w = .ok () w' ∧
      w'.host.buffer? id = some b' ∧
      (∀ x, x ∈ b'.marks ∧ x.name = m.name ↔ x = m') ∧
      m'.position.column = m.position.column ∧ b'.text.line? m'.position.line = some line ∧
      m.through? b.text (b.text.replacements e (applicationOrder edits)) = some m' ∧
      m.through? b.text (b.replacements config e edits) = some m' := by
  subst hw
  have hordered := (Session.marksOrdered_run disk steps).of_buffer? hbuffer
  obtain ⟨m', hcolumn, hedited, hthrough, hline'⟩ :=
    Buffer.exists_followed config hvalid hline huntouched
  have hname : m'.name = m.name := Mark.name_of_through? hthrough
  by_cases hedits : edits = []
  · -- an empty batch does nothing
    subst hedits
    obtain rfl : m = m' := Option.some.inj hedited
    exact ⟨_, b, m, rfl, hbuffer, fun _ => hordered.mem_and_name_iff hm, rfl, hline, hedited,
      hthrough⟩
  · obtain ⟨w', hrun, hafter⟩ := buffer?_applyTextEdits config e hbuffer hedits
    have hmem := Buffer.mem_marks_afterBatch hordered hm hthrough
    rw [← Buffer.text_afterBatch_eq_foldl] at hline'
    refine ⟨w', _, m', hrun, hafter, ?_, hcolumn, hline', hedited, hthrough⟩
    intro x
    rw [← hname]
    exact (Buffer.ordered_afterBatch hordered config e edits).mem_and_name_iff hmem

/-- The first line is replaced by three and the last by one that brings a line feed. A mark that is
not a letter is on the line between them, and that line is empty. -/
theorem applyTextEdits_follows_between :
    let b : Buffer := { Buffer.new ⟨1⟩ ⟨[]⟩ ['é', '\n', '\n', 'x', 'y'] with
      marks := [⟨'1', ⟨1, 0⟩⟩, ⟨'a', ⟨2, 1⟩⟩] }
    let w := Session.run ⟨.empty, .empty⟩ [.editor (.insertBuffer b.path b.text),
      .editor (.call (.setMarks b.id b.marks))]
    let edits : List TextEdit := [⟨⟨⟨0, 0⟩, ⟨0, 1⟩⟩, ['o', '\n', 'p', '\n', 'q']⟩,
      ⟨⟨⟨2, 2⟩, ⟨2, 0⟩⟩, ['z', '\n', '\n']⟩]
    let m : Mark := ⟨'1', ⟨1, 0⟩⟩
    w.host.buffer? b.id = some b ∧ ValidBatch .utf16 b.text edits ∧ m ∈ b.marks ∧
      b.text.line? m.position.line = some [] ∧
      (∀ edit ∈ edits, ¬ edit.TouchesLine m.position.line) ∧
      ∃ w' b' m', applyTextEdits ⟨Editor.asHost, .standard, .utf16⟩ b.id edits w = .ok () w' ∧
        w'.host.buffer? b.id = some b' ∧
        (∀ x, x ∈ b'.marks ∧ x.name = m.name ↔ x = m') ∧
        m'.position.column = m.position.column ∧ b'.text.line? m'.position.line = some [] ∧
        m.through? b.text (b.text.replacements .utf16 (applicationOrder edits)) = some m' ∧
        m.through? b.text (b.replacements .standard .utf16 edits) = some m' := by
  intro b w edits m
  have hbuffer : w.host.buffer? b.id = some b := by decide
  have hvalid : ValidBatch .utf16 b.text edits := by decide
  have hm : m ∈ b.marks := by decide
  have hline : b.text.line? m.position.line = some [] := by decide
  have huntouched : ∀ edit ∈ edits, ¬ edit.TouchesLine m.position.line := by decide
  exact ⟨hbuffer, hvalid, hm, hline, huntouched,
    applyTextEdits_follows rfl hbuffer .standard .utf16 hvalid hm hline huntouched⟩

end Applier

end WorkspaceEditing
