import WorkspaceEditing.Proofs.Batch.Splice

/-!
# Places past the end of a line

An offset may lie past the end of its line, or inside a character, and is then read as the exact
place in front of it. It is read in the text that the edits applied before have left, and there the
line may be longer than it was. If each edit ends no later than where the next one, read in the text
before the batch, starts, that makes no difference: all edits replace what their ranges hold in the
text before the batch, and none takes away what another has put in. An edit whose end goes further
than that can reach what another edit has put in at the end of its line, and takes it away.

## Main definitions

* `Protocol.SettledBatch` — the batches that are read alike in the text before them and on the way.
* `Text.amendedAll` — replacements of fixed ranges, carried out one after the other.

## Main results

* `Text.edited_eq_amendedAll` — the edits of a settled batch replace fixed ranges.
* `Applier.applyTextEdits_settled` — applying a settled batch leaves the text so made, and all of
  what its edits put in is in it.
-/

namespace WorkspaceEditing

open Protocol

/-! ## Settled batches -/

namespace Protocol

/-- The batches that are read alike in a text and in what their own edits make of it: all lines
exist, and of any two edits one ends where the other one, read in the text, starts, or before. As in
a valid batch, insertions come before what starts at the same place. -/
structure SettledBatch (e : Encoding) (t : Text) (edits : List TextEdit) : Prop where
  lines : ∀ edit ∈ edits,
    edit.range.start.line < t.lineCount ∧ edit.range.stop.line < t.lineCount
  apart : edits.Pairwise fun a b =>
    a.normalized.range.stop ≤ b.normalized.range.start.snapped e t ∨
      b.normalized.range.stop ≤ a.normalized.range.start.snapped e t
  insertionsFirst : edits.Pairwise fun a b =>
    a.normalized.range.start = b.normalized.range.start →
      b.normalized.IsInsertion → a.normalized.IsInsertion

theorem settledBatch_iff {e : Encoding} {t : Text} {edits : List TextEdit} :
    SettledBatch e t edits ↔
      (∀ edit ∈ edits,
        edit.range.start.line < t.lineCount ∧ edit.range.stop.line < t.lineCount) ∧
      (edits.Pairwise fun a b =>
        a.normalized.range.stop ≤ b.normalized.range.start.snapped e t ∨
          b.normalized.range.stop ≤ a.normalized.range.start.snapped e t) ∧
      edits.Pairwise fun a b =>
        a.normalized.range.start = b.normalized.range.start →
          b.normalized.IsInsertion → a.normalized.IsInsertion :=
  ⟨fun h => ⟨h.lines, h.apart, h.insertionsFirst⟩, fun h => ⟨h.1, h.2.1, h.2.2⟩⟩

instance (e : Encoding) (t : Text) (edits : List TextEdit) : Decidable (SettledBatch e t edits) :=
  decidable_of_iff _ settledBatch_iff.symm

/-- The edits of a list, their lines in the text and their ranges in order, each end where the one
in front of it, read in the text, starts, or before. -/
structure Settles (e : Encoding) (t : Text) (edits : List TextEdit) : Prop where
  lines : ∀ x ∈ edits, x.range.start.line < t.lineCount ∧ x.range.stop.line < t.lineCount
  ordered : ∀ x ∈ edits, x.range.start ≤ x.range.stop
  apart : edits.Pairwise fun a b => b.range.stop ≤ a.range.start.snapped e t

/-- Of two edits applied one after the other, the second ends where the first one is read to start,
or before. -/
theorem TextEdit.stop_le_snapped {e : Encoding} {t : Text} {a b : TextEdit}
    (hb : b.range.start ≤ b.range.stop) (ha : a.range.start ≤ a.range.stop)
    (happart : a.range.stop ≤ b.range.start.snapped e t ∨ b.range.stop ≤ a.range.start.snapped e t)
    (hle : b.range.stop ≤ a.range.start) : b.range.stop ≤ a.range.start.snapped e t := by
  rcases happart with h | h
  · -- all four ends and the place that is read are one
    have hround : a.range.stop ≤ b.range.stop :=
      Position.le_trans h (Position.le_trans (b.range.start.snapped_le e t) hb)
    have hsame : a.range.start = b.range.start :=
      Position.le_antisymm
        (Position.le_trans (Position.le_trans ha h) (b.range.start.snapped_le e t))
        (Position.le_trans hb hle)
    rw [hsame]
    exact Position.le_trans (Position.le_trans hle ha) h
  · exact h

theorem SettledBatch.settles {e : Encoding} {t : Text} {edits : List TextEdit}
    (h : SettledBatch e t edits) : Settles e t (applicationOrder edits) where
  lines x hx := by
    obtain ⟨edit, hedit, rfl⟩ := mem_applicationOrder.1 hx
    have hlines := h.lines edit hedit
    rcases edit.range.normalized_cases with heq | heq
    · simpa only [TextEdit.normalized, heq] using hlines
    · simpa only [TextEdit.normalized, heq] using hlines.symm
  ordered x hx := start_le_stop_of_mem hx
  apart := by
    have hdescent : (applicationOrder edits).Pairwise fun a b => b.range.stop ≤ a.range.start := by
      refine pairwise_applicationOrder_of_apart (h.apart.imp ?_) h.insertionsFirst
      intro a b hab
      exact hab.imp (Position.le_trans · (Position.snapped_le _ e t))
        (Position.le_trans · (Position.snapped_le _ e t))
    have happart : (applicationOrder edits).Pairwise fun a b =>
        a.range.stop ≤ b.range.start.snapped e t ∨ b.range.stop ≤ a.range.start.snapped e t :=
      (perm_applicationOrder edits).symm.pairwise (List.pairwise_map.2 h.apart) Or.symm
    refine (hdescent.and happart).imp_of_mem ?_
    intro a b ha hb hab
    exact TextEdit.stop_le_snapped (start_le_stop_of_mem hb) (start_le_stop_of_mem ha) hab.2 hab.1

namespace Settles

variable {e : Encoding} {t : Text} {edit : TextEdit} {rest : List TextEdit}

theorem tail (h : Settles e t (edit :: rest)) : Settles e t rest where
  lines x hx := h.lines x (List.mem_cons_of_mem _ hx)
  ordered x hx := h.ordered x (List.mem_cons_of_mem _ hx)
  apart := h.apart.tail

/-- The next edit ends no later than where this one is read to start. -/
theorem nextStop_le (h : Settles e t (edit :: rest)) :
    nextStop rest ≤ edit.range.start.snapped e t := by
  cases rest with
  | nil => exact Position.le_iff.2 (by simp only [nextStop]; omega)
  | cons next others => exact (List.pairwise_cons.1 h.apart).1 next List.mem_cons_self

end Settles

end Protocol

/-! ## Replacing fixed ranges -/

namespace Text

/-- The text after replacements, each carried out in the text that the one before has left. -/
def amendedAll (t : Text) (rs : List Replacement) : Text := rs.foldl amended t

variable {e : Encoding} {s t u : Text} {p q : Position}

theorem after_append (h : p ≤ e.place s) (x : Text) : after e (s ++ x) p = after e s p ++ x := by
  rw [after, upTo_append_of_le h, List.drop_append_of_le_length (upTo_isPrefix e s p).length_le]
  rfl

/-- A line exists in every text that is alike in front of a place of it. -/
theorem line_lt_of_upTo_eq (h : u.upTo e p = t.upTo e p) (hp : p.line < t.lineCount) :
    p.line < u.lineCount := by
  have hline : (u.upTo e p).extent.line = p.line := by
    rw [h]
    exact Position.line_snapped hp
  rw [← upTo_append_after e u p, lineCount_eq_extent, extent_append, BytePosition.line_add, hline]
  omega

section

variable {edit : TextEdit} {rest : List TextEdit} (h : Settles e t (edit :: rest))
  (hu : u.upTo e edit.range.stop = t.upTo e edit.range.stop)
include h hu

/-- In a text that is as it was up to where an edit ends, the edit has its lines, -/
theorem lines_of_settles :
    edit.range.start.line < u.lineCount ∧ edit.range.stop.line < u.lineCount := by
  have hstop := line_lt_of_upTo_eq hu (h.lines edit List.mem_cons_self).2
  have hle := Position.le_iff.1 (h.ordered edit List.mem_cons_self)
  exact ⟨by omega, hstop⟩

/-- asks for the same as in the text before the batch, -/
theorem replacementIn_of_settles (hnew : edit.newText.unifyLineBreaks.endsInBreak = false) :
    edit.replacementIn e u = edit.replacementIn e t := by
  have hle := h.ordered edit List.mem_cons_self
  have hlines := h.lines edit List.mem_cons_self
  have hlines' := lines_of_settles h hu
  rw [replacementIn_of_lines hlines'.1 hlines'.2 hle, replacementIn_of_lines hlines.1 hlines.2 hle,
    inserted_of_not_endsInBreak hnew, inserted_of_not_endsInBreak hnew, hu, upTo_congr hu hle]

/-- and leaves a text that is as it was up to where the next edit ends, and goes on with what it has
put in and all that stood behind it. -/
theorem amended_of_settles :
    (u.amended (edit.replacementIn e u)).upTo e (nextStop rest) = t.upTo e (nextStop rest) ∧
      inserted edit.newText (after e u edit.range.stop) ++ after e u edit.range.stop <:+
        after e (u.amended (edit.replacementIn e u)) (nextStop rest) := by
  have hle := h.ordered edit List.mem_cons_self
  have hlines := lines_of_settles h hu
  have hnext : nextStop rest ≤ e.place (t.upTo e edit.range.start) := h.nextStop_le
  have hstart : nextStop rest ≤ edit.range.start :=
    Position.le_trans hnext (place_upTo_le e t edit.range.start)
  rw [amended_of_lines hlines.1 hlines.2 hle, upTo_congr hu hle]
  refine ⟨?_, ?_⟩
  · rw [upTo_append_of_le hnext, upTo_upTo hstart]
  · rw [after_append hnext]
    exact List.suffix_append _ _

end

/-- The edits of a settled batch replace what their ranges hold in the text before the batch, -/
theorem edited_eq_amendedAll {edits : List TextEdit} (h : Settles e t edits)
    (hnew : ∀ edit ∈ edits, edit.newText.unifyLineBreaks.endsInBreak = false)
    (hu : u.upTo e (nextStop edits) = t.upTo e (nextStop edits)) :
    u.edited e edits = u.amendedAll (edits.map (·.replacementIn e t)) := by
  induction edits generalizing u with
  | nil => rfl
  | cons edit rest ih =>
    have hsame := replacementIn_of_settles h hu (hnew edit List.mem_cons_self)
    have hrest := ih h.tail (fun x hx => hnew x (List.mem_cons_of_mem _ hx))
      (amended_of_settles h hu).1
    rw [hsame] at hrest
    rw [edited, List.foldl_cons, hsame, List.map_cons, amendedAll, List.foldl_cons]
    exact hrest

/-- and all that they put in is there in the end, in front of what was there behind them. -/
theorem newTexts_sublist_edited {edits : List TextEdit} (h : Settles e t edits)
    (hnew : ∀ edit ∈ edits, edit.newText.unifyLineBreaks.endsInBreak = false)
    (hu : u.upTo e (nextStop edits) = t.upTo e (nextStop edits)) {out : Text}
    (hout : out.Sublist (after e u (nextStop edits))) :
    ((edits.reverse.map fun edit => edit.newText.unifyLineBreaks).flatten ++ out).Sublist
      (u.edited e edits) := by
  induction edits generalizing u out with
  | nil => simpa [edited] using hout.trans (List.drop_sublist _ u)
  | cons edit rest ih =>
    obtain ⟨hupTo, hbehind⟩ := amended_of_settles h hu
    rw [inserted_of_not_endsInBreak (hnew edit List.mem_cons_self)] at hbehind
    have hout' := (hout.append_left edit.newText.unifyLineBreaks).trans hbehind.sublist
    have hrest := ih h.tail (fun x hx => hnew x (List.mem_cons_of_mem _ hx)) hupTo hout'
    simpa [edited] using hrest

/-! ## The final trim -/

theorem endsInBreak_flatten {ts : List Text} (h : ∀ t ∈ ts, t.endsInBreak = false) :
    endsInBreak ts.flatten = false := by
  induction ts with
  | nil => rfl
  | cons t ts ih =>
    have ht : t.getLast? ≠ some '\n' := of_decide_eq_false (h t List.mem_cons_self)
    have hts : ts.flatten.getLast? ≠ some '\n' :=
      of_decide_eq_false (ih fun x hx => h x (List.mem_cons_of_mem _ hx))
    rw [endsInBreak, List.flatten_cons, List.getLast?_append, decide_eq_false_iff_not]
    cases hlast : ts.flatten.getLast? with
    | none => simpa using ht
    | some c => simpa [hlast] using hts

/-- What does not end in a line feed does not need the last one. -/
theorem sublist_withoutFinalBreak (h : s.Sublist t) (hs : s.endsInBreak = false) :
    s.Sublist t.withoutFinalBreak := by
  unfold withoutFinalBreak
  split
  · rename_i hend
    obtain ⟨x, rfl⟩ := List.getLast?_eq_some_iff.1 (of_decide_eq_true hend)
    obtain ⟨s₁, s₂, rfl, hs₁, hs₂⟩ := List.sublist_append_iff.1 h
    rcases List.sublist_singleton.1 hs₂ with rfl | rfl
    · simpa using hs₁
    · simp [endsInBreak] at hs
  · exact h

theorem sublist_trimmed (h : s.Sublist u) (hs : s.endsInBreak = false) (config : Config)
    (fixes : Bool) (t : Text) : s.Sublist (t.trimmed config fixes u) := by
  unfold trimmed
  split
  · exact sublist_withoutFinalBreak h hs
  · exact h

end Text

/-! ## The batch -/

/-- Applying a settled batch to an open buffer succeeds. It replaces the ranges that its edits name
in the text before the batch, in the order of application, and nothing that one of them puts in is
lost. -/
theorem Applier.applyTextEdits_settled {w : World Editor} {id : BufferId} {b : Buffer}
    (hbuffer : w.host.buffer? id = some b) (config : Config) (e : Encoding) {edits : List TextEdit}
    (hedits : edits ≠ []) (hsettled : SettledBatch e b.text edits)
    (hnew : ∀ edit ∈ edits, edit.newText.unifyLineBreaks.endsInBreak = false) :
    ∃ w' out, applyTextEdits ⟨Editor.asHost, config, e⟩ id edits w = .ok () w' ∧
      w'.host.text? id = some out ∧
      out = b.text.trimmed config b.fixesEndOfLine
        (b.text.amendedAll ((applicationOrder edits).map (·.replacementIn e b.text))) ∧
      ((applicationOrder edits).reverse.map fun edit => edit.newText.unifyLineBreaks).flatten.Sublist
        out := by
  have hnew' : ∀ x ∈ applicationOrder edits, x.newText.unifyLineBreaks.endsInBreak = false := by
    intro x hx
    obtain ⟨edit, hedit, rfl⟩ := mem_applicationOrder.1 hx
    exact hnew edit hedit
  have hkept : ((applicationOrder edits).reverse.map
      fun edit => edit.newText.unifyLineBreaks).flatten.Sublist
        (b.text.edited e (applicationOrder edits)) := by
    simpa using Text.newTexts_sublist_edited hsettled.settles hnew' rfl (List.nil_sublist _)
  have hends : Text.endsInBreak ((applicationOrder edits).reverse.map
      fun edit => edit.newText.unifyLineBreaks).flatten = false := by
    apply Text.endsInBreak_flatten
    intro t ht
    obtain ⟨x, hx, rfl⟩ := List.mem_map.1 ht
    exact hnew' x (List.mem_reverse.1 hx)
  rw [← Text.edited_eq_amendedAll hsettled.settles hnew' rfl]
  obtain ⟨w', hrun, htext⟩ := text?_applyTextEdits config e hbuffer hedits
  exact ⟨w', _, hrun, htext, rfl, Text.sublist_trimmed hkept hends config b.fixesEndOfLine b.text⟩

/-- A range that starts inside a character and ends past the end of its line, and one in front of
it: the places that they name are those around the character. -/
theorem Applier.applyTextEdits_settled_overshoot :
    let t : Text := ['a', 'é', '\n', 'c', 'd']
    let edits : List TextEdit := [⟨⟨⟨0, 2⟩, ⟨0, 9⟩⟩, ['x']⟩, ⟨⟨⟨0, 0⟩, ⟨0, 1⟩⟩, ['b']⟩]
    let w : World Editor := ⟨(Editor.empty.insertBuffer ⟨[]⟩ t).2, .empty⟩
    edits ≠ [] ∧ SettledBatch .utf8 t edits ∧
      (∀ edit ∈ edits, edit.newText.unifyLineBreaks.endsInBreak = false) ∧
      ∃ w', applyTextEdits ⟨Editor.asHost, .standard, .utf8⟩ ⟨1⟩ edits w = .ok () w' ∧
        w'.host.text? ⟨1⟩ = some ['b', 'x', '\n', 'c', 'd'] := by
  intro t edits w
  have hedits : edits ≠ [] := by decide
  have hsettled : SettledBatch .utf8 t edits := by decide
  have hnew : ∀ edit ∈ edits, edit.newText.unifyLineBreaks.endsInBreak = false := by decide
  have hbuffer : w.host.buffer? ⟨1⟩ = some (Buffer.new ⟨1⟩ ⟨[]⟩ t) := rfl
  obtain ⟨w', out, hrun, htext, hout, -⟩ :=
    applyTextEdits_settled hbuffer .standard .utf8 hedits hsettled hnew
  refine ⟨hedits, hsettled, hnew, w', hrun, ?_⟩
  rw [htext, hout]
  decide

/-- Past the end of one line, a deletion up to one place and an insertion at a later one: the ranges
do not overlap, but the deletion reaches what has been put in at the end of the line. In the text
before the batch its range would have ended in front of that. -/
theorem Applier.applyTextEdits_takes_away :
    let t : Text := ['a', 'b']
    let edits : List TextEdit := [⟨⟨⟨0, 1⟩, ⟨0, 7⟩⟩, []⟩, ⟨⟨⟨0, 9⟩, ⟨0, 9⟩⟩, ['Y']⟩]
    let w : World Editor := ⟨(Editor.empty.insertBuffer ⟨[]⟩ t).2, .empty⟩
    (∀ edit ∈ edits, edit.range.start.line < t.lineCount ∧ edit.range.stop.line < t.lineCount) ∧
      (edits.Pairwise fun a b =>
        a.range.stop ≤ b.range.start ∧ a.range.start ≠ b.range.start) ∧
      (∀ edit ∈ edits, edit.newText.unifyLineBreaks.endsInBreak = false) ∧
      t.amendedAll ((applicationOrder edits).map (·.replacementIn .utf16 t)) = ['a', 'Y'] ∧
      ∃ w', applyTextEdits ⟨Editor.asHost, .standard, .utf16⟩ ⟨1⟩ edits w = .ok () w' ∧
        w'.host.text? ⟨1⟩ = some ['a'] := by
  intro t edits w
  have hbuffer : w.host.buffer? ⟨1⟩ = some (Buffer.new ⟨1⟩ ⟨[]⟩ t) := rfl
  have hedits : edits ≠ [] := by decide
  obtain ⟨w', hrun, htext⟩ := text?_applyTextEdits .standard .utf16 hbuffer hedits
  refine ⟨by decide, by decide, by decide, by decide, w', hrun, ?_⟩
  rw [htext]
  decide

end WorkspaceEditing
