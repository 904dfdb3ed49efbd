import WorkspaceEditing.Proofs.Batch.Run
import WorkspaceEditing.Proofs.Protocol.Order
import WorkspaceEditing.Proofs.Text.Reading

/-!
# A valid batch is one splice

The edits of a valid batch speak of one text, the one before the batch, and are applied to texts
that the edits before them have changed. What comes out is that one text cut at all their places,
with the new texts put in. Only an edit behind which a line ends is special: of its new text, a line
feed at the end is left out, where the text that has come out so far goes on with a line feed or
ends.

## Main definitions

* `Text.after`, `Text.between` — the parts of a text behind a place and between two places.
* `Text.inserted` — the text that an edit puts in.
* `Text.spliced` — a text with all edits of a batch put in at once.

## Main results

* `Text.edited_eq_spliced` — the edits of a valid batch, one after the other, make one splice.
* `Applier.applyTextEdits_spliced` — applying a valid batch leaves that splice.
-/

namespace WorkspaceEditing

open Protocol

namespace Text

/-! ## The splice -/

/-- The part of a text behind a server's place. -/
def after (e : Encoding) (t : Text) (p : Position) : Text := t.drop (t.upTo e p).length

/-- The part of a text between two places. -/
def between (e : Encoding) (t : Text) (p q : Position) : Text :=
  (t.upTo e q).drop (t.upTo e p).length

/-- What the new text of an edit comes to in front of `out`: a line feed at its end is left out
where it would stand at the end of a line. -/
def inserted (newText out : Text) : Text :=
  if out = [] ∨ out.head? = some '\n' then newText.unifyLineBreaks.withoutFinalBreak
  else newText.unifyLineBreaks

/-- `out` with edits put in front of it, each with the part of the text that is left alone between
it and the next. -/
def prepended (e : Encoding) (t : Text) : List TextEdit → Text → Text
  | [], out => out
  | edit :: rest, out =>
    prepended e t rest
      (between e t (nextStop rest) edit.range.start ++ (inserted edit.newText out ++ out))

/-- A text with the edits of a batch put in, each in place of what its range held before. -/
def spliced (e : Encoding) (t : Text) (edits : List TextEdit) : Text :=
  match inDescent edits with
  | [] => t
  | first :: rest => prepended e t (first :: rest) (after e t first.range.stop)

/-! ## Parts of a text -/

/-- In front of the start there is nothing. -/
@[simp] theorem upTo_start (e : Encoding) (t : Text) : t.upTo e ⟨0, 0⟩ = [] := upTo_place e [] t

theorem place_upTo {e : Encoding} {t : Text} {p : Position} (h : p.IsExact e t) :
    e.place (t.upTo e p) = p := place_upTo_eq_iff.2 h

/-- In front of an exact place there are as many line feeds as its line has in front of it. -/
theorem line_upTo {e : Encoding} {t : Text} {p : Position} (h : p.IsExact e t) :
    (t.upTo e p).extent.line = p.line := by
  have := congrArg Position.line (place_upTo h)
  rwa [Encoding.place_line] at this

theorem upTo_append_after (e : Encoding) (t : Text) (p : Position) :
    t.upTo e p ++ after e t p = t :=
  List.prefix_iff_eq_append.1 (upTo_isPrefix e t p)

theorem upTo_append_between {e : Encoding} {t : Text} {p q : Position} (hp : p.IsExact e t)
    (hq : q.IsExact e t) (h : p ≤ q) : t.upTo e p ++ between e t p q = t.upTo e q := by
  have hplaces : e.place (t.upTo e p) ≤ e.place (t.upTo e q) := by
    rwa [place_upTo hp, place_upTo hq]
  exact List.prefix_iff_eq_append.1
    (Encoding.prefix_of_place_le (upTo_isPrefix e t p) (upTo_isPrefix e t q) hplaces)

/-- The line of a place runs across the cut there. -/
theorem line?_eq_of_lt {e : Encoding} {t : Text} {p : Position} (h : p.line < t.lineCount) :
    t.line? p.line = some ((t.upTo e p).lastLine ++ (after e t p).firstLine) := by
  have hsame : (t.upTo e p).extent.line = p.line := Position.line_snapped h
  have hcut := line?_append (t.upTo e p) (after e t p)
  rwa [upTo_append_after, hsame] at hcut

/-! ## One edit -/

theorem inserted_of_not_endsInBreak {newText : Text}
    (h : newText.unifyLineBreaks.endsInBreak = false) (out : Text) :
    inserted newText out = newText.unifyLineBreaks := by
  unfold inserted withoutFinalBreak
  rw [h]
  simp

/-- The lines of a text without those that a line feed at its end opens. -/
theorem lines_withoutFinalBreak (t : Text) :
    t.withoutFinalBreak.lines = if t.endsInBreak then t.lines.dropLast else t.lines := by
  unfold withoutFinalBreak
  split
  · rename_i h
    obtain ⟨s, rfl⟩ := List.getLast?_eq_some_iff.1 (of_decide_eq_true h)
    rw [lines_append_break, List.dropLast_concat, List.dropLast_concat]
  · rfl

/-- The end of a range, cut at the end of its line, and the lines of what is put in. -/
theorem cutAtLineEnd_eq (s x newText : Text) :
    Applier.cutAtLineEnd s.extent (some (s.lastLine ++ x.firstLine)) newText.normalizeLineBreaks =
      (s.extent, (inserted newText x).lines) := by
  have hlength : byteLength (s.lastLine ++ x.firstLine) = s.extent.column + x.firstLine.byteLength :=
    byteLength_append ..
  have hend : byteLength (s.lastLine ++ x.firstLine) ≤ s.extent.column ↔
      x = [] ∨ x.head? = some '\n' := by
    rw [hlength, ← firstLine_eq_nil_iff, ← byteLength_eq_zero_iff]
    omega
  have hcut : min s.extent.column (byteLength (s.lastLine ++ x.firstLine)) = s.extent.column := by
    omega
  have hlines : (inserted newText x).lines =
      if (x = [] ∨ x.head? = some '\n') ∧ newText.unifyLineBreaks.getLast? = some '\n'
      then newText.unifyLineBreaks.lines.dropLast else newText.unifyLineBreaks.lines := by
    unfold inserted
    by_cases hx : x = [] ∨ x.head? = some '\n'
    · simp only [hx, if_true, true_and, lines_withoutFinalBreak, endsInBreak, decide_eq_true_eq]
    · simp only [hx, if_false, false_and]
  simp only [Applier.cutAtLineEnd, Option.map_some, Option.getD_some, hcut, hend, hlines,
    normalizeLineBreaks_eq]

/-- An edit whose lines exist replaces what lies between the beginnings in front of its places. -/
theorem replacementIn_of_lines {e : Encoding} {edit : TextEdit} {t : Text}
    (hstart : edit.range.start.line < t.lineCount) (hstop : edit.range.stop.line < t.lineCount)
    (hle : edit.range.start ≤ edit.range.stop) :
    edit.replacementIn e t =
      ⟨⟨(t.upTo e edit.range.start).extent, (t.upTo e edit.range.stop).extent⟩,
        (inserted edit.newText (after e t edit.range.stop)).lines⟩ := by
  obtain ⟨line, hline⟩ := exists_line? hstart
  have hsame : (t.upTo e edit.range.stop).extent.line = edit.range.stop.line :=
    Position.line_snapped hstop
  have hstopLine := line?_eq_of_lt (e := e) hstop
  have hextents : (t.upTo e edit.range.start).extent ≤ (t.upTo e edit.range.stop).extent := by
    obtain ⟨m, hm⟩ := upTo_isPrefix_upTo (e := e) (t := t) hle
    rw [← hm]
    exact extent_le_append _ m
  have hdecode := Position.decode_of_line? (e := e) hstopLine
  have hexists : ¬ t.lineCount - 1 < (t.upTo e edit.range.stop).extent.line := by omega
  simp only [TextEdit.replacementIn, if_neg (Nat.not_le.2 hstart), hline,
    Position.decode_of_line? hline, hstopLine, hdecode, if_neg hexists, cutAtLineEnd_eq,
    BytePosition.latest, hextents, if_true]

/-- It leaves what stands in front of its start, the inserted text and what stands behind its end. -/
theorem amended_of_lines {e : Encoding} {edit : TextEdit} {t : Text}
    (hstart : edit.range.start.line < t.lineCount) (hstop : edit.range.stop.line < t.lineCount)
    (hle : edit.range.start ≤ edit.range.stop) :
    t.amended (edit.replacementIn e t) = t.upTo e edit.range.start ++
      (inserted edit.newText (after e t edit.range.stop) ++ after e t edit.range.stop) := by
  obtain ⟨m, hm⟩ := upTo_isPrefix_upTo (e := e) (t := t) hle
  have ht : t.upTo e edit.range.start ++ m ++ after e t edit.range.stop = t := by
    rw [hm, upTo_append_after]
  have hr := replacementIn_of_lines (e := e) hstart hstop hle
  rw [← hm] at hr
  have hamended := amended_eq (congrArg Replacement.range hr) (after e t edit.range.stop)
  rw [ht, hr, ofLines_lines] at hamended
  rw [hr, hamended, List.append_assoc]

/-- An edit whose places are those of two beginnings of the text replaces what lies between. -/
theorem replacementIn_eq {e : Encoding} {edit : TextEdit} {s m : Text}
    (hstart : edit.range.start = e.place s) (hstop : edit.range.stop = e.place (s ++ m)) (x : Text) :
    edit.replacementIn e (s ++ m ++ x) =
      ⟨⟨s.extent, (s ++ m).extent⟩, (inserted edit.newText x).lines⟩ := by
  have hline (s' y : Text) : (e.place s').line < lineCount (s' ++ y) := by
    rw [Encoding.place_line, lineCount_eq_extent, extent_append, BytePosition.line_add]
    omega
  have hupTo : (s ++ m ++ x).upTo e (e.place s) = s := by
    rw [List.append_assoc, upTo_place]
  have hreplaced : edit.replacementIn e (s ++ m ++ x) = _ := replacementIn_of_lines
    (by rw [hstart, List.append_assoc]; exact hline s (m ++ x))
    (by rw [hstop]; exact hline (s ++ m) x)
    (by rw [hstart, hstop]; exact Encoding.place_le_append e s m)
  rwa [hstart, hstop, hupTo, after, upTo_place, List.drop_left] at hreplaced

/-! ## All edits -/

section

variable {e : Encoding} {t : Text} {edit : TextEdit} {rest : List TextEdit}
  (h : Descends e t (edit :: rest)) (out : Text)
include h

/-- What stands in front of the end of an edit is what its range holds, behind what stands in front of
its start, -/
theorem upTo_range : t.upTo e edit.range.start ++ between e t edit.range.start edit.range.stop =
    t.upTo e edit.range.stop := upTo_append_between h.start h.stop h.start_le_stop

/-- and that is what lies between the edits, behind what stands in front of the end of the next one. -/
theorem upTo_gap : t.upTo e (nextStop rest) ++ between e t (nextStop rest) edit.range.start =
    t.upTo e edit.range.start :=
  upTo_append_between h.tail.nextStop_isExact h.start h.nextStop_le

/-- What an edit asks for, in a text that is as it was before up to where the edit ends. -/
theorem replacementIn_upTo : edit.replacementIn e (t.upTo e edit.range.stop ++ out) =
    ⟨⟨(t.upTo e edit.range.start).extent, (t.upTo e edit.range.stop).extent⟩,
      (inserted edit.newText out).lines⟩ := by
  have hrange := upTo_range h
  have hplace : edit.range.stop =
      e.place (t.upTo e edit.range.start ++ between e t edit.range.start edit.range.stop) := by
    rw [hrange, place_upTo h.stop]
  have := replacementIn_eq (place_upTo h.start).symm hplace out
  rwa [hrange] at this

/-- What it leaves is as it was before up to where the next edit ends. -/
theorem amended_upTo : (t.upTo e edit.range.stop ++ out).amended
      (edit.replacementIn e (t.upTo e edit.range.stop ++ out)) =
    t.upTo e (nextStop rest) ++ (between e t (nextStop rest) edit.range.start ++
      (inserted edit.newText out ++ out)) := by
  have hrange := upTo_range h
  have hbefore := upTo_gap h
  have hr := replacementIn_upTo h out
  rw [← hrange] at hr ⊢
  rw [hr, amended_eq rfl, ofLines_lines, ← hbefore]
  simp only [List.append_assoc]

end

/-- While the edits are applied, the text is what it was before, up to where the next edit ends, and
from there on what has come out so far. -/
theorem edited_eq_prepended {e : Encoding} {t : Text} {edits : List TextEdit}
    (h : Descends e t edits) (out : Text) :
    edited e (t.upTo e (nextStop edits) ++ out) edits = prepended e t edits out := by
  induction edits generalizing out with
  | nil => simp [nextStop, edited, prepended]
  | cons edit rest ih =>
    rw [edited, nextStop, List.foldl_cons, amended_upTo h]
    exact ih h.tail _

/-- The edits of a valid batch, one after the other, make one splice. -/
theorem edited_eq_spliced {e : Encoding} {t : Text} {edits : List TextEdit}
    (h : ValidBatch e t edits) : t.edited e (applicationOrder edits) = t.spliced e edits := by
  have hdescends := h.descends
  rw [spliced, ← applicationOrder_eq]
  cases happ : applicationOrder edits with
  | nil => rfl
  | cons first rest =>
    rw [happ] at hdescends
    have := edited_eq_prepended hdescends (after e t first.range.stop)
    rwa [nextStop, upTo_append_after] at this

end Text

/-! ## The batch -/

/-- A valid batch applied to an open buffer succeeds, and leaves the text with all its edits put in,
less an empty last line that they have brought in. -/
theorem Applier.applyTextEdits_spliced {w : World Editor} {id : BufferId} {b : Buffer}
    (hbuffer : w.host.buffer? id = some b) (config : Config) (e : Encoding) {edits : List TextEdit}
    (hedits : edits ≠ []) (hvalid : ValidBatch e b.text edits) :
    ∃ w', applyTextEdits ⟨Editor.asHost, config, e⟩ id edits w = .ok () w' ∧
      w'.host.text? id =
        some (b.text.trimmed config b.fixesEndOfLine (b.text.spliced e edits)) := by
  obtain ⟨host, -, hafter, hrun⟩ := applyTextEdits_ok config e hbuffer hedits
  refine ⟨_, hrun, ?_⟩
  have htext : (b.afterBatch config e edits).text =
      b.text.trimmed config b.fixesEndOfLine (b.text.spliced e edits) := by
    rw [Buffer.text_afterBatch, Text.edited_eq_spliced hvalid]
  cases w.host.tracked? config id with
  | none => simp [Editor.text?, hafter, htext]
  | some p => simp [Editor.text?, hafter, htext]

/-- Two lines, the second replaced, and a line feed put in at the end of the first: that line feed
would leave an empty line behind, and is left out. -/
theorem Applier.applyTextEdits_spliced_lines :
    let t : Text := ['a', 'b', '\n', 'c', 'd', '\n']
    let edits : List TextEdit :=
      [⟨⟨⟨1, 2⟩, ⟨1, 0⟩⟩, ['x']⟩, ⟨⟨⟨0, 2⟩, ⟨0, 2⟩⟩, ['!', '\r', '\n']⟩]
    let w : World Editor := ⟨(Editor.empty.insertBuffer ⟨[]⟩ t).2, .empty⟩
    edits ≠ [] ∧ ValidBatch .utf16 t edits ∧
      ∃ w', applyTextEdits ⟨Editor.asHost, .standard, .utf16⟩ ⟨1⟩ edits w = .ok () w' ∧
        w'.host.text? ⟨1⟩ = some ['a', 'b', '!', '\n', 'x', '\n'] := by
  intro t edits w
  have hedits : edits ≠ [] := by decide
  have hvalid : ValidBatch .utf16 t edits := by decide
  have hbuffer : w.host.buffer? ⟨1⟩ = some (Buffer.new ⟨1⟩ ⟨[]⟩ t) := rfl
  exact ⟨hedits, hvalid, applyTextEdits_spliced hbuffer .standard .utf16 hedits hvalid⟩

end WorkspaceEditing
