import WorkspaceEditing.Proofs.Batch.Splice

/-!
# Replacing a range by the text that it covers

An edit whose new text is the text that its range covers should change nothing. That is so unless
the range, not an empty one, ends on an empty line. The end is then both the start and the end of
that line, so the line feed in front of it, which the new text ends in, is left out as one that
would open an empty line behind the range. But the empty line was there before, and it is gone
afterwards.

## Main definitions

* `Text.covered` — the text that a range covers.

## Main results

* `Text.inserted_covered` — what of the covered text is put back.
* `Applier.applyTextEdits_covered` — what putting it back leaves of a buffer's text.
-/

namespace WorkspaceEditing

open Protocol

namespace Text

/-- The text that a range covers, whichever of its ends comes first. -/
def covered (e : Encoding) (t : Text) (r : Range) : Text :=
  between e t r.normalized.start r.normalized.stop

/-! ## What is put back -/

section

variable {s m x : Text}

/-- A cut behind some text is made on an empty line exactly if a line feed stands on either side of
it, the end of the text taken for one. -/
theorem lastLine_append_firstLine_eq_nil_iff (hm : m ≠ []) :
    (s ++ m).lastLine ++ x.firstLine = [] ↔
      m.endsInBreak = true ∧ (x = [] ∨ x.head? = some '\n') := by
  obtain ⟨body, c, rfl⟩ := List.eq_nil_or_concat' m |>.resolve_left hm
  have hlast : (s ++ (body ++ [c])).lastLine = [] ↔ c = '\n' := by
    rw [← List.append_assoc]
    by_cases hc : c = '\n'
    · simp [hc, lastLine_append_of_mem, lastLine]
    · rw [lastLine_append_of_not_mem (by simpa using Ne.symm hc)]
      simp [hc]
  rw [List.append_eq_nil_iff, firstLine_eq_nil_iff, hlast]
  simp [endsInBreak]

/-- Of covered text all is put back, up to the last character if the cut behind it is made on an
empty line. -/
theorem inserted_covered (hbreaks : '\r' ∉ m) (s x : Text) :
    inserted m x =
      if m ≠ [] ∧ (s ++ m).lastLine ++ x.firstLine = [] then m.dropLast else m := by
  rw [inserted, unifyLineBreaks_of_not_mem hbreaks]
  by_cases hm : m = []
  · simp [hm, withoutFinalBreak]
  · simp only [lastLine_append_firstLine_eq_nil_iff hm, withoutFinalBreak]
    by_cases hx : x = [] ∨ x.head? = some '\n'
    · simp [hm, hx]
    · simp [hx]

/-! ## The last line break -/

theorem trimmed_of_endsInBreak {t : Text} (h : t.endsInBreak = true) (config : Config)
    (fixes : Bool) (out : Text) : t.trimmed config fixes out = out := by
  simp [trimmed, h]

/-- If what stood in front of the end of a text is exchanged, an empty last line is none that the
edits have brought in. -/
theorem trimmed_append_right (config : Config) (fixes : Bool) (s' : Text) (hx : x ≠ []) :
    (s ++ x).trimmed config fixes (s' ++ x) = s' ++ x := by
  have hself := trimmed_self config fixes (s ++ x)
  rw [trimmed_append config fixes _ s hx] at hself
  rw [trimmed_append config fixes _ s' hx, List.append_cancel_left hself]

/-- Putting covered text back leaves no empty last line that was not there before. -/
theorem trimmed_inserted (hbreaks : '\r' ∉ m) (config : Config) (fixes : Bool) (s x : Text) :
    (s ++ m ++ x).trimmed config fixes (s ++ (inserted m x ++ x)) = s ++ (inserted m x ++ x) := by
  by_cases hx : x = []
  · subst hx
    cases hend : m.endsInBreak with
    | true =>
      obtain ⟨body, rfl⟩ := List.getLast?_eq_some_iff.1 (of_decide_eq_true hend)
      exact trimmed_of_endsInBreak (by simp [endsInBreak]) config fixes _
    | false =>
      have hall : inserted m [] = m := by
        rw [inserted_of_not_endsInBreak, unifyLineBreaks_of_not_mem hbreaks]
        rwa [unifyLineBreaks_of_not_mem hbreaks]
      simp [hall]
  · rw [← List.append_assoc s]
    exact trimmed_append_right config fixes _ hx

end

/-! ## The text afterwards -/

section

variable {e : Encoding} {t : Text} {r : Range} (hstart : r.start.IsExact e t)
  (hstop : r.stop.IsExact e t)
include hstart hstop

/-- In front of the end of a range stands what stands in front of its start, and what it covers. -/
theorem upTo_append_covered :
    t.upTo e r.normalized.start ++ t.covered e r = t.upTo e r.normalized.stop := by
  obtain ⟨hstart', hstop'⟩ := Range.isExact_normalized hstart hstop
  exact upTo_append_between hstart' hstop' r.not_stop_before_start

/-- One edit puts its text between what stands in front of the range and what stands behind it. -/
theorem edited_singleton (newText : Text) : t.edited e (applicationOrder [⟨r, newText⟩]) =
    t.upTo e r.normalized.start ++
      (inserted newText (t.after e r.normalized.stop) ++ t.after e r.normalized.stop) := by
  have hvalid : ValidBatch e t [⟨r, newText⟩] := by
    refine ⟨?_, List.pairwise_singleton _ _, List.pairwise_singleton _ _⟩
    intro edit hedit
    obtain rfl := List.mem_singleton.1 hedit
    exact ⟨hstart, hstop⟩
  rw [edited_eq_spliced hvalid]
  simp [spliced, inDescent, prepended, between, nextStop, TextEdit.normalized]

/-- Putting back what a range covers leaves all of the text, or all but the line feed in front of
the end of the range. -/
theorem trimmed_edited_covered (hbreaks : '\r' ∉ t) (config : Config) (fixes : Bool) :
    t.trimmed config fixes (t.edited e (applicationOrder [⟨r, t.covered e r⟩])) =
      if t.covered e r ≠ [] ∧ t.line? r.normalized.stop.line = some [] then
        t.upTo e r.normalized.start ++ ((t.covered e r).dropLast ++ t.after e r.normalized.stop)
      else t := by
  have hparts : t.upTo e r.normalized.start ++ t.covered e r ++ t.after e r.normalized.stop = t := by
    rw [upTo_append_covered hstart hstop, upTo_append_after]
  have hcovered : '\r' ∉ t.covered e r := by
    intro hmem
    rw [← hparts] at hbreaks
    simp [hmem] at hbreaks
  have htrim := trimmed_inserted hcovered config fixes (t.upTo e r.normalized.start)
    (t.after e r.normalized.stop)
  rw [hparts] at htrim
  rw [edited_singleton hstart hstop, htrim, inserted_covered hcovered (t.upTo e r.normalized.start),
    upTo_append_covered hstart hstop]
  obtain ⟨line, hline, -⟩ := (Range.isExact_normalized hstart hstop).2
  have hcut := line?_eq_of_lt (e := e) (List.getElem?_eq_some_iff.1 hline).1
  simp only [hcut, Option.some_inj]
  split_ifs
  · rfl
  · rw [← List.append_assoc, hparts]

end

end Text

/-- Replacing a range by the text that it covers leaves the text of a buffer as it is, unless the
range ends on an empty line and is not empty itself: then the line feed in front of its end is
lost. -/
theorem Applier.applyTextEdits_covered {w : World Editor} {id : BufferId} {b : Buffer}
    (hbuffer : w.host.buffer? id = some b) (config : Config) (e : Encoding)
    (hbreaks : '\r' ∉ b.text) {r : Range} (hstart : r.start.IsExact e b.text)
    (hstop : r.stop.IsExact e b.text) :
    ∃ w', applyTextEdits ⟨Editor.asHost, config, e⟩ id [⟨r, b.text.covered e r⟩] w = .ok () w' ∧
      w'.host.text? id = some (
        if b.text.covered e r ≠ [] ∧ b.text.line? r.normalized.stop.line = some [] then
          b.text.upTo e r.normalized.start ++
            ((b.text.covered e r).dropLast ++ b.text.after e r.normalized.stop)
        else b.text) := by
  obtain ⟨w', hrun, htext⟩ := text?_applyTextEdits config e hbuffer
    (List.cons_ne_nil (⟨r, b.text.covered e r⟩ : TextEdit) [])
  refine ⟨w', hrun, ?_⟩
  rw [htext, Text.trimmed_edited_covered hstart hstop hbreaks]

/-- Two lines and the line feed behind them are put back, the ends of the range swapped. -/
theorem Applier.applyTextEdits_covered_lines :
    let t : Text := ['é', '\n', 'b', '\n', 'c']
    let r : Range := ⟨⟨2, 0⟩, ⟨0, 0⟩⟩
    let w : World Editor := ⟨(Editor.empty.insertBuffer ⟨[]⟩ t).2, .empty⟩
    w.host.buffer? ⟨1⟩ = some (Buffer.new ⟨1⟩ ⟨[]⟩ t) ∧ '\r' ∉ t ∧
      r.start.IsExact .utf8 t ∧ r.stop.IsExact .utf8 t ∧
      ∃ w', applyTextEdits ⟨Editor.asHost, .standard, .utf8⟩ ⟨1⟩
          [⟨r, ['é', '\n', 'b', '\n']⟩] w = .ok () w' ∧
        w'.host.text? ⟨1⟩ = some t := by
  intro t r w
  have hbuffer : w.host.buffer? ⟨1⟩ = some (Buffer.new ⟨1⟩ ⟨[]⟩ t) := rfl
  have hbreaks : '\r' ∉ t := by decide
  have hstart : r.start.IsExact .utf8 t := by decide
  have hstop : r.stop.IsExact .utf8 t := by decide
  exact ⟨hbuffer, hbreaks, hstart, hstop,
    applyTextEdits_covered hbuffer .standard .utf8 hbreaks hstart hstop⟩

/-- A line and the line feed behind it, in front of an empty line, are put back: the empty line is
gone. -/
theorem Applier.applyTextEdits_covered_loses_line :
    let t : Text := ['a', '\n', '\n', 'b']
    let r : Range := ⟨⟨0, 0⟩, ⟨1, 0⟩⟩
    let w : World Editor := ⟨(Editor.empty.insertBuffer ⟨[]⟩ t).2, .empty⟩
    '\r' ∉ t ∧ r.start.IsExact .utf16 t ∧ r.stop.IsExact .utf16 t ∧
      t.covered .utf16 r = ['a', '\n'] ∧
      ∃ w' out, applyTextEdits ⟨Editor.asHost, .standard, .utf16⟩ ⟨1⟩ [⟨r, ['a', '\n']⟩] w =
          .ok () w' ∧
        w'.host.text? ⟨1⟩ = some out ∧ out = ['a', '\n', 'b'] ∧ out ≠ t := by
  intro t r w
  have hbuffer : w.host.buffer? ⟨1⟩ = some (Buffer.new ⟨1⟩ ⟨[]⟩ t) := rfl
  obtain ⟨w', hrun, htext⟩ := text?_applyTextEdits .standard .utf16 hbuffer
    (List.cons_ne_nil (⟨r, ['a', '\n']⟩ : TextEdit) [])
  exact ⟨by decide, by decide, by decide, by decide, w', _, hrun, htext, by decide, by decide⟩

end WorkspaceEditing
