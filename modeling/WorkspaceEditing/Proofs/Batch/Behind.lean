import WorkspaceEditing.Proofs.Batch.Splice

/-!
# Insertions behind the end of a text

An insertion for a line behind the last is put behind the end, on a line of its own. That makes a
line more, so that an insertion applied later may find its line: it is then put into what earlier
ones have put in, at the offset that it names. Nothing is lost in this way, but the order of the
insertions is that of their places only if each of them comes in front of the one applied before it.

## Main definitions

* `Protocol.TextEdit.PutsBehind` — the insertion of a single line behind the last line of a text.
* `Protocol.TextEdit.GoesInFront` — of two such insertions, the one applied later goes in front.

## Main results

* `Text.edited_behind` — insertions behind the end keep the text, and lose nothing of their own.
* `Text.edited_behind_inOrder` — if each goes in front of the one before, they end up in order.
* `Applier.applyTextEdits_behind` — what a batch of them leaves of a buffer.
-/

namespace WorkspaceEditing

open Protocol

namespace Protocol.TextEdit

/-- The edit puts a part of a line on a line behind the last line of a text. -/
structure PutsBehind (t : Text) (edit : TextEdit) : Prop where
  insertion : edit.IsInsertion
  behind : t.lineCount ≤ edit.range.start.line
  nonempty : edit.newText ≠ []
  unbroken : '\n' ∉ edit.newText ∧ '\r' ∉ edit.newText

instance (t : Text) (edit : TextEdit) : Decidable (edit.PutsBehind t) :=
  decidable_of_iff
    (edit.IsInsertion ∧ t.lineCount ≤ edit.range.start.line ∧ edit.newText ≠ [] ∧
      '\n' ∉ edit.newText ∧ '\r' ∉ edit.newText)
    ⟨fun h => ⟨h.1, h.2.1, h.2.2.1, h.2.2.2⟩,
      fun h => ⟨h.insertion, h.behind, h.nonempty, h.unbroken⟩⟩

/-- Of two insertions behind the end of a text, the one applied later goes in front of the other: it
is for the line right behind the last, and its offset has no room for the other's first character. -/
def GoesInFront (e : Encoding) (t : Text) (earlier later : TextEdit) : Prop :=
  later.range.start.line = t.lineCount ∧
    earlier.newText.head?.any (fun c => later.range.start.character < e.charLength c) = true

instance (e : Encoding) (t : Text) (earlier later : TextEdit) :
    Decidable (GoesInFront e t earlier later) :=
  inferInstanceAs (Decidable (_ ∧ _))

theorem normalized_of_isInsertion {edit : TextEdit} (h : edit.IsInsertion) :
    edit.normalized = edit := by
  have hbefore : edit.range.stop.before edit.range.start = false := by
    rw [← show edit.range.start = edit.range.stop from h]
    simp [Position.before]
  simp [normalized, Range.normalized, hbefore]

namespace PutsBehind

variable {t : Text} {edit : TextEdit}

theorem endsInBreak_newText (h : edit.PutsBehind t) : edit.newText.endsInBreak = false := by
  rw [Text.endsInBreak, decide_eq_false_iff_not]
  exact fun hlast => h.unbroken.1 (List.mem_of_getLast? hlast)

theorem unifyLineBreaks_newText (h : edit.PutsBehind t) :
    edit.newText.unifyLineBreaks = edit.newText :=
  Text.unifyLineBreaks_of_not_mem h.unbroken.2

theorem filter_newText (h : edit.PutsBehind t) : edit.newText.filter (· ≠ '\n') = edit.newText := by
  apply List.filter_eq_self.2
  intro c hc
  have hne : c ≠ '\n' := fun heq => h.unbroken.1 (heq ▸ hc)
  simpa using hne

end PutsBehind

end Protocol.TextEdit

namespace Text

variable {e : Encoding} {t tail : Text} {edit : TextEdit}

/-! ## Texts of two parts -/

theorem lineCount_append_cons_break (s x : Text) :
    lineCount (s ++ '\n' :: x) = s.lineCount + x.lineCount := by
  simp only [lineCount_eq, List.count_append, List.count_cons_self]
  omega

/-- A place behind a line feed is counted from there. -/
theorem upTo_append_cons_break {s : Text} {p : Position} (h : s.lineCount ≤ p.line) (x : Text) :
    (s ++ '\n' :: x).upTo e p =
      s ++ '\n' :: x.upTo e ⟨p.line - s.lineCount, p.character⟩ := by
  have hlast : lastLine (s ++ ['\n']) = [] := lastLine_append_of_mem (by simp) s
  have hcount : List.count '\n' (s ++ ['\n']) = s.lineCount := by simp [lineCount_eq]
  have hupTo := upTo_append_lines (e := e) hlast x ⟨p.line - s.lineCount, p.character⟩
  rwa [hcount, List.append_assoc, List.append_assoc, Nat.add_sub_cancel' h] at hupTo

theorem endsInBreak_append {s x : Text} (h : x ≠ []) :
    endsInBreak (s ++ x) = x.endsInBreak := by
  rw [endsInBreak, endsInBreak, List.getLast?_append_of_ne_nil s h]

/-- An empty line in front of a text opens it with a line feed. -/
theorem ofLines_nil_cons_lines (t : Text) : ofLines ([] :: t.lines) = '\n' :: t := by
  have hjoined := ofLines_lines t
  obtain ⟨first, others, hlines⟩ := List.exists_cons_of_ne_nil (lines_ne_nil t)
  rw [hlines] at hjoined ⊢
  rw [ofLines, joined_cons_cons, ← ofLines, hjoined, List.nil_append]

/-! ## One insertion -/

/-- For a line that is missing, the new text of an edit is put behind the end, -/
theorem amended_of_lineCount_le (hline : t.lineCount ≤ edit.range.start.line) :
    t.amended (edit.replacementIn e t) = t ++ '\n' :: edit.newText.unifyLineBreaks := by
  have hr : edit.replacementIn e t =
      ⟨.point t.extent, [] :: edit.newText.unifyLineBreaks.lines⟩ := by
    simp only [TextEdit.replacementIn, if_pos hline, normalizeLineBreaks_eq]
  have hrange : (edit.replacementIn e t).range = ⟨t.extent, (t ++ []).extent⟩ := by
    rw [hr, List.append_nil]
    rfl
  have hamended := amended_eq hrange []
  rwa [List.append_nil, List.append_nil, List.append_nil, hr, ofLines_nil_cons_lines,
    ← hr] at hamended

/-- and for a line that earlier insertions have brought, it is put in there. -/
theorem amended_of_lt_lineCount (h : edit.PutsBehind t) {u : Text}
    (hline : edit.range.start.line < u.lineCount) :
    u.amended (edit.replacementIn e u) =
      u.upTo e edit.range.start ++ (edit.newText ++ after e u edit.range.start) := by
  have hpoint : edit.range.stop = edit.range.start := h.insertion.symm
  have hends : edit.newText.unifyLineBreaks.endsInBreak = false := by
    rw [h.unifyLineBreaks_newText, h.endsInBreak_newText]
  have hamended : u.amended (edit.replacementIn e u) = _ := amended_of_lines hline
    (by rw [hpoint]; exact hline)
    (by rw [hpoint]; exact Position.le_iff.2 (.inr ⟨rfl, Nat.le_refl _⟩))
  rwa [hpoint, inserted_of_not_endsInBreak hends, h.unifyLineBreaks_newText] at hamended

/-- An insertion leaves the text, and puts its own somewhere in what stands behind it. -/
theorem amended_behind (h : edit.PutsBehind t) (tail : Text) :
    ∃ front back brk, tail = front ++ back ∧ (brk = [] ∨ brk = ['\n'] ∧ back = []) ∧
      (t ++ '\n' :: tail).amended (edit.replacementIn e (t ++ '\n' :: tail)) =
        t ++ '\n' :: (front ++ brk ++ edit.newText ++ back) := by
  by_cases hline : edit.range.start.line < (t ++ '\n' :: tail).lineCount
  · obtain ⟨p, hp⟩ : ∃ p : Position,
        p = ⟨edit.range.start.line - t.lineCount, edit.range.start.character⟩ := ⟨_, rfl⟩
    refine ⟨tail.upTo e p, after e tail p, [], (upTo_append_after e tail p).symm, .inl rfl, ?_⟩
    rw [amended_of_lt_lineCount h hline, after, upTo_append_cons_break h.behind, ← hp]
    simp [after]
  · refine ⟨tail, [], ['\n'], by simp, .inr ⟨rfl, rfl⟩, ?_⟩
    rw [amended_of_lineCount_le (Nat.le_of_not_lt hline), h.unifyLineBreaks_newText]
    simp

/-- An insertion that goes in front of all that stands behind the text comes right behind the line
feed. -/
theorem amended_inFront (h : edit.PutsBehind t) {earlier : TextEdit}
    (hearlier : earlier.PutsBehind t) (hfront : TextEdit.GoesInFront e t earlier edit)
    (tail : Text) :
    (t ++ '\n' :: (earlier.newText ++ tail)).amended
        (edit.replacementIn e (t ++ '\n' :: (earlier.newText ++ tail))) =
      t ++ '\n' :: (edit.newText ++ (earlier.newText ++ tail)) := by
  obtain ⟨hline, hroom⟩ := hfront
  obtain ⟨c, rest, hnew⟩ := List.exists_cons_of_ne_nil hearlier.nonempty
  have hc : c ≠ '\n' := fun heq => hearlier.unbroken.1 (by simp [hnew, heq])
  have hupTo : (earlier.newText ++ tail).upTo e ⟨0, edit.range.start.character⟩ = [] := by
    have hshort : ¬ e.charLength c ≤ edit.range.start.character := by simpa [hnew] using hroom
    rw [hnew, List.cons_append, upTo, if_neg hc, if_pos rfl, if_neg hshort]
  have hexists : edit.range.start.line < (t ++ '\n' :: (earlier.newText ++ tail)).lineCount := by
    rw [hline, lineCount_append_cons_break, lineCount_eq (earlier.newText ++ tail)]
    omega
  rw [amended_of_lt_lineCount h hexists, after, upTo_append_cons_break h.behind, hline,
    Nat.sub_self, hupTo]
  simp

/-! ## All insertions -/

/-- Insertions behind the end keep the text and the characters that they put in. -/
theorem edited_behind {edits : List TextEdit} (h : ∀ edit ∈ edits, edit.PutsBehind t)
    (htail : tail ≠ []) (hends : tail.endsInBreak = false) :
    ∃ tail', (t ++ '\n' :: tail).edited e edits = t ++ '\n' :: tail' ∧ tail' ≠ [] ∧
      endsInBreak tail' = false ∧
      (tail'.filter (· ≠ '\n')).Perm
        (tail.filter (· ≠ '\n') ++ edits.flatMap TextEdit.newText) := by
  induction edits generalizing tail with
  | nil => exact ⟨tail, rfl, htail, hends, by simp⟩
  | cons edit rest ih =>
    have hedit := h edit List.mem_cons_self
    obtain ⟨front, back, brk, rfl, hbrk, hamended⟩ := amended_behind (e := e) hedit tail
    have hends' : endsInBreak (front ++ brk ++ edit.newText ++ back) = false := by
      by_cases hback : back = []
      · rw [hback, List.append_nil, endsInBreak_append hedit.nonempty]
        exact hedit.endsInBreak_newText
      · rwa [endsInBreak_append hback] at hends ⊢
    obtain ⟨tail', hrun, hne, hends'', hperm⟩ :=
      ih (fun x hx => h x (List.mem_cons_of_mem _ hx)) (by simp [hedit.nonempty]) hends'
    refine ⟨tail', ?_, hne, hends'', hperm.trans ?_⟩
    · rw [edited, List.foldl_cons, hamended]
      exact hrun
    · -- the line feed that came in is filtered out again
      have hfilter : brk.filter (· ≠ '\n') = [] := by
        rcases hbrk with rfl | ⟨rfl, -⟩ <;> rfl
      rw [List.filter_append, List.filter_append, List.filter_append, hfilter,
        hedit.filter_newText, List.filter_append, List.flatMap_cons, List.append_nil,
        List.append_assoc, List.append_assoc, List.append_assoc]
      refine List.Perm.append_left _ ?_
      rw [← List.append_assoc, ← List.append_assoc]
      exact List.perm_append_comm.append_right _

/-- If each insertion goes in front of the one before, they end up in order. -/
theorem edited_behind_inOrder {first : TextEdit} {edits : List TextEdit}
    (h : ∀ edit ∈ first :: edits, edit.PutsBehind t)
    (hchain : (first :: edits).IsChain (TextEdit.GoesInFront e t)) :
    (t ++ '\n' :: (first.newText ++ tail)).edited e edits =
      t ++ '\n' :: ((first :: edits).reverse.flatMap TextEdit.newText ++ tail) := by
  induction edits generalizing first tail with
  | nil => simp [edited]
  | cons edit rest ih =>
    obtain ⟨hfront, hrest⟩ := List.isChain_cons_cons.1 hchain
    have hamended := amended_inFront (h edit (by simp)) (h first List.mem_cons_self) hfront tail
    have hrun : (t ++ '\n' :: (edit.newText ++ (first.newText ++ tail))).edited e rest = _ :=
      ih (fun x hx => h x (List.mem_cons_of_mem _ hx)) hrest
    rw [edited, List.foldl_cons, hamended, ← edited, hrun]
    simp

/-- Insertions at the start of the line right behind the last each go in front of the one before. -/
theorem isChain_goesInFront {edits : List TextEdit} (h : ∀ edit ∈ edits, edit.PutsBehind t)
    (hplace : ∀ edit ∈ edits, edit.range.start = ⟨t.lineCount, 0⟩) (e : Encoding) :
    edits.IsChain (TextEdit.GoesInFront e t) := by
  apply List.Pairwise.isChain
  apply List.pairwise_of_forall_mem_list
  intro earlier hearlier later hlater
  obtain ⟨c, rest, hnew⟩ := List.exists_cons_of_ne_nil (h earlier hearlier).nonempty
  have hroom := e.charLength_pos c
  rw [TextEdit.GoesInFront, hplace later hlater, hnew]
  simpa using hroom

/-- The first insertion of a batch is put behind the end, and the others after it. -/
theorem edited_putsBehind {edits : List TextEdit} (hedits : edits ≠ [])
    (h : ∀ edit ∈ edits, edit.PutsBehind t) :
    ∃ tail, t.edited e edits = t ++ '\n' :: tail ∧ tail ≠ [] ∧ endsInBreak tail = false ∧
      (tail.filter (· ≠ '\n')).Perm (edits.flatMap TextEdit.newText) ∧
      (edits.IsChain (TextEdit.GoesInFront e t) →
        tail = edits.reverse.flatMap TextEdit.newText) := by
  obtain ⟨first, rest, rfl⟩ := List.exists_cons_of_ne_nil hedits
  have hfirst := h first List.mem_cons_self
  have hamended := amended_of_lineCount_le (e := e) hfirst.behind
  rw [hfirst.unifyLineBreaks_newText] at hamended
  obtain ⟨tail, hrun, hne, hends, hperm⟩ := edited_behind (e := e)
    (fun x hx => h x (List.mem_cons_of_mem _ hx)) hfirst.nonempty hfirst.endsInBreak_newText
  rw [← hamended] at hrun
  refine ⟨tail, hrun, hne, hends, ?_, ?_⟩
  · rwa [hfirst.filter_newText, ← List.flatMap_cons] at hperm
  · intro hchain
    have hordered : (t ++ '\n' :: (first.newText ++ [])).edited e rest = _ :=
      edited_behind_inOrder h hchain
    rw [List.append_nil, List.append_nil, ← hamended] at hordered
    have hsame : t ++ '\n' :: tail = t ++ '\n' :: (first :: rest).reverse.flatMap TextEdit.newText :=
      hrun.symm.trans hordered
    simpa using hsame

end Text

/-! ## The batch -/

/-- Applying insertions behind the end to an open buffer succeeds. The text stays in front, and what
comes behind it is made of the inserted texts and of line feeds. If each of them, in the order of
application, goes in front of the one before, they come in the order of their places, and at one
place in that of the batch. -/
theorem Applier.applyTextEdits_behind {w : World Editor} {id : BufferId} {b : Buffer}
    (hbuffer : w.host.buffer? id = some b) (config : Config) (e : Encoding) {edits : List TextEdit}
    (hedits : edits ≠ []) (hbehind : ∀ edit ∈ edits, edit.PutsBehind b.text) :
    ∃ w' tail, applyTextEdits ⟨Editor.asHost, config, e⟩ id edits w = .ok () w' ∧
      w'.host.text? id = some (b.text ++ '\n' :: tail) ∧
      (tail.filter (· ≠ '\n')).Perm (edits.flatMap TextEdit.newText) ∧
      ((applicationOrder edits).IsChain (TextEdit.GoesInFront e b.text) →
        tail = (applicationOrder edits).reverse.flatMap TextEdit.newText) := by
  have hordered : ∀ x ∈ applicationOrder edits, x.PutsBehind b.text := by
    intro x hx
    obtain ⟨edit, hedit, rfl⟩ := mem_applicationOrder.1 hx
    rw [TextEdit.normalized_of_isInsertion (hbehind edit hedit).insertion]
    exact hbehind edit hedit
  have hne : applicationOrder edits ≠ [] := by
    rw [← List.length_pos_iff, (perm_applicationOrder edits).length_eq, List.length_map,
      List.length_pos_iff]
    exact hedits
  obtain ⟨tail, hrun, htail, hends, hperm, hchain⟩ := Text.edited_putsBehind (e := e) hne hordered
  have htrimmed : b.text.trimmed config b.fixesEndOfLine (b.text ++ '\n' :: tail) =
      b.text ++ '\n' :: tail := by
    have hlast : Text.endsInBreak (b.text ++ '\n' :: tail) = false := by
      rwa [Text.endsInBreak_append (List.cons_ne_nil _ _), ← List.singleton_append,
        Text.endsInBreak_append htail]
    simp [Text.trimmed, Text.withoutFinalBreak, hlast]
  have hnewTexts : ((applicationOrder edits).flatMap TextEdit.newText).Perm
      (edits.flatMap TextEdit.newText) := by
    have := (perm_applicationOrder edits).flatMap_right TextEdit.newText
    rwa [List.flatMap_map] at this
  obtain ⟨w', happlied, htext⟩ := text?_applyTextEdits config e hbuffer hedits
  refine ⟨w', tail, happlied, ?_, hperm.trans hnewTexts, hchain⟩
  rw [htext, hrun, htrimmed]

/-- Two insertions at the start of the line right behind the last. -/
theorem Applier.applyTextEdits_behind_two :
    let t : Text := ['x']
    let edits : List TextEdit := [⟨⟨⟨1, 0⟩, ⟨1, 0⟩⟩, ['a']⟩, ⟨⟨⟨1, 0⟩, ⟨1, 0⟩⟩, ['b']⟩]
    let w : World Editor := ⟨(Editor.empty.insertBuffer ⟨[]⟩ t).2, .empty⟩
    edits ≠ [] ∧ (∀ edit ∈ edits, edit.PutsBehind t) ∧
      (applicationOrder edits).IsChain (TextEdit.GoesInFront .utf16 t) ∧
      ∃ w', applyTextEdits ⟨Editor.asHost, .standard, .utf16⟩ ⟨1⟩ edits w = .ok () w' ∧
        w'.host.text? ⟨1⟩ = some ['x', '\n', 'a', 'b'] := by
  intro t edits w
  have hedits : edits ≠ [] := by decide
  have hbehind : ∀ edit ∈ edits, edit.PutsBehind t := by decide
  have hchain : (applicationOrder edits).IsChain (TextEdit.GoesInFront .utf16 t) :=
    Text.isChain_goesInFront (by decide) (by decide) .utf16
  have hbuffer : w.host.buffer? ⟨1⟩ = some (Buffer.new ⟨1⟩ ⟨[]⟩ t) := rfl
  obtain ⟨w', tail, hrun, htext, -, hordered⟩ :=
    applyTextEdits_behind hbuffer .standard .utf16 hedits hbehind
  refine ⟨hedits, hbehind, hchain, w', hrun, ?_⟩
  rw [htext, hordered hchain]
  decide

/-- Two insertions at one place further behind the end: each is put behind all that is there when it
is applied, so the last of the batch comes first. -/
theorem Applier.applyTextEdits_behind_reversed :
    let t : Text := ['x']
    let edits : List TextEdit := [⟨⟨⟨2, 0⟩, ⟨2, 0⟩⟩, ['a']⟩, ⟨⟨⟨2, 0⟩, ⟨2, 0⟩⟩, ['b']⟩]
    let w : World Editor := ⟨(Editor.empty.insertBuffer ⟨[]⟩ t).2, .empty⟩
    (∀ edit ∈ edits, edit.PutsBehind t) ∧
      ∃ w' out, applyTextEdits ⟨Editor.asHost, .standard, .utf16⟩ ⟨1⟩ edits w = .ok () w' ∧
        w'.host.text? ⟨1⟩ = some out ∧ out = ['x', '\n', 'b', '\n', 'a'] ∧
        out.filter (· ≠ '\n') ≠ t ++ edits.flatMap TextEdit.newText := by
  intro t edits w
  have hbuffer : w.host.buffer? ⟨1⟩ = some (Buffer.new ⟨1⟩ ⟨[]⟩ t) := rfl
  have hedits : edits ≠ [] := by decide
  obtain ⟨w', hrun, htext⟩ := text?_applyTextEdits .standard .utf16 hbuffer hedits
  exact ⟨by decide, w', _, hrun, htext, by decide, by decide⟩

end WorkspaceEditing
