import WorkspaceEditing.Proofs.Batch.Behind
import WorkspaceEditing.Proofs.Batch.Snapped

/-!
# What insertions keep and deletions leave

A batch of insertions leaves the old text in the buffer, character by character, whatever places the
edits name; the line feed that the final trim takes away is none of the old text. A batch of
deletions leaves nothing but what was there, with one exception: an edit for a line behind the last
appends an empty line, even if its new text is empty. So each such edit makes the text a line
longer, and one that comes after it in the order of application has to go further down to do so
again.

## Main definitions

* `Protocol.emptyLines` — the number of edits that append a line to a text of so many lines.

## Main results

* `Text.sublist_edited_of_insertions` — insertions keep the text.
* `Text.edited_sublist_of_deletions` — deletions leave a part of the text and of the appended lines.
* `Applier.applyTextEdits_insertions`, `Applier.applyTextEdits_deletions` — what is left after
  a batch of them.
-/

namespace WorkspaceEditing

open Protocol

namespace Protocol

/-- How many edits, in the order of application, are for a line behind the last: the first of them
in a text of `lineCount` lines, and each further one in a text of one line more. -/
def emptyLines : Nat → List TextEdit → Nat
  | _, [] => 0
  | lineCount, edit :: rest =>
    if lineCount ≤ edit.range.start.line then emptyLines (lineCount + 1) rest + 1 else 0

theorem emptyLines_of_lt {lineCount : Nat} {edits : List TextEdit}
    (h : ∀ edit ∈ edits, edit.range.start.line < lineCount) : emptyLines lineCount edits = 0 := by
  cases edits with
  | nil => rfl
  | cons edit rest => exact if_neg (Nat.not_le.2 (h edit List.mem_cons_self))

/-- No more lines are appended than there are edits for lines behind the last. -/
theorem emptyLines_le (lineCount : Nat) (edits : List TextEdit) :
    emptyLines lineCount edits ≤ edits.countP fun edit => lineCount ≤ edit.range.start.line := by
  induction edits generalizing lineCount with
  | nil => exact Nat.le_refl 0
  | cons edit rest ih =>
    rw [emptyLines]
    split_ifs with hbehind
    · have hfewer : rest.countP (fun edit => lineCount + 1 ≤ edit.range.start.line) ≤
          rest.countP fun edit => lineCount ≤ edit.range.start.line := by
        apply List.countP_mono_left
        intro x _ hx
        simp only [decide_eq_true_eq] at hx ⊢
        omega
      rw [List.countP_cons_of_pos (by simpa using hbehind)]
      exact Nat.succ_le_succ ((ih (lineCount + 1)).trans hfewer)
    · exact Nat.zero_le _

end Protocol

namespace Text

variable {e : Encoding} {t : Text} {edit : TextEdit} {edits : List TextEdit}

/-! ## Characters other than line feeds -/

/-- The text without its line feeds. -/
def unbroken (t : Text) : Text := t.filter (· ≠ '\n')

@[simp] theorem unbroken_append (s t : Text) : (s ++ t).unbroken = s.unbroken ++ t.unbroken :=
  List.filter_append s t

@[simp] theorem unbroken_cons_break (t : Text) : unbroken ('\n' :: t) = t.unbroken := rfl

@[simp] theorem unbroken_withoutFinalBreak (t : Text) :
    t.withoutFinalBreak.unbroken = t.unbroken := by
  unfold withoutFinalBreak
  split
  · rename_i hend
    obtain ⟨s, rfl⟩ := List.getLast?_eq_some_iff.1 (of_decide_eq_true hend)
    simp [unbroken]
  · rfl

@[simp] theorem unbroken_trimmed (config : Config) (fixes : Bool) (t out : Text) :
    (t.trimmed config fixes out).unbroken = out.unbroken := by
  unfold trimmed
  split_ifs
  · exact unbroken_withoutFinalBreak out
  · rfl

@[simp] theorem unbroken_inserted (newText out : Text) :
    (inserted newText out).unbroken = newText.unifyLineBreaks.unbroken := by
  unfold inserted
  split_ifs
  · exact unbroken_withoutFinalBreak _
  · rfl

/-- What is left of a text without its line breaks of any kind. -/
theorem unbroken_unifyLineBreaks (t : Text) :
    t.unifyLineBreaks.unbroken = t.filter fun c => c ≠ '\n' ∧ c ≠ '\r' := by
  unfold unbroken
  fun_induction unifyLineBreaks t with
  | case1 => rfl
  | case2 rest ih => simpa using ih
  | case3 rest _ ih => simpa using ih
  | case4 c rest hc ih => simp_all [List.filter_cons]

/-! ## Insertions -/

/-- An insertion keeps the text, and puts in the characters of its own. -/
theorem sublist_amended_of_insertion (h : edit.IsInsertion) :
    t.Sublist (t.amended (edit.replacementIn e t)) ∧
      (t.amended (edit.replacementIn e t)).unbroken.Perm
        (t.unbroken ++ edit.newText.unifyLineBreaks.unbroken) := by
  by_cases hline : edit.range.start.line < t.lineCount
  · have hstop : edit.range.stop = edit.range.start := h.symm
    have hamended : t.amended (edit.replacementIn e t) = _ := amended_of_lines hline
      (by rw [hstop]; exact hline)
      (by rw [hstop]; exact Position.le_iff.2 (.inr ⟨rfl, Nat.le_refl _⟩))
    rw [hamended, hstop]
    have hcut := upTo_append_after e t edit.range.start
    generalize t.upTo e edit.range.start = s at hcut ⊢
    generalize after e t edit.range.start = x at hcut ⊢
    subst hcut
    constructor
    · exact (List.sublist_append_right _ x).append_left s
    · simp only [unbroken_append, unbroken_inserted, List.append_assoc]
      exact List.perm_append_comm.append_left _
  · rw [amended_of_lineCount_le (Nat.le_of_not_lt hline)]
    exact ⟨List.sublist_append_left t _, by simp⟩

/-- Insertions keep the text, and bring in the characters of their new texts and line feeds. -/
theorem sublist_edited_of_insertions (h : ∀ edit ∈ edits, edit.IsInsertion) :
    t.Sublist (t.edited e edits) ∧ (t.edited e edits).unbroken.Perm
      (t.unbroken ++ edits.flatMap fun edit => edit.newText.unifyLineBreaks.unbroken) := by
  induction edits generalizing t with
  | nil => simp [edited]
  | cons edit rest ih =>
    have hedit := h edit List.mem_cons_self
    obtain ⟨hkept, hnew⟩ := sublist_amended_of_insertion (e := e) (t := t) hedit
    obtain ⟨hkept', hnew'⟩ := ih (t := t.amended (edit.replacementIn e t))
      fun x hx => h x (List.mem_cons_of_mem _ hx)
    refine ⟨hkept.trans hkept', hnew'.trans ?_⟩
    rw [List.flatMap_cons, ← List.append_assoc]
    exact hnew.append_right _

/-- The final trim takes nothing of a text that the edits have kept. -/
theorem sublist_trimmed_self {out : Text} (h : t.Sublist out) (config : Config) (fixes : Bool) :
    t.Sublist (t.trimmed config fixes out) := by
  cases hends : t.endsInBreak with
  | true => simpa [trimmed, hends] using h
  | false => exact sublist_trimmed h hends config fixes t

/-! ## Deletions -/

/-- An edit with an empty new text and an existing first line puts nothing in, and leaves the text
up to that line. -/
theorem amended_sublist_of_deletion (h : edit.newText = [])
    (hline : edit.range.start.line < t.lineCount) :
    (t.amended (edit.replacementIn e t)).Sublist t ∧
      edit.range.start.line < (t.amended (edit.replacementIn e t)).lineCount := by
  have hlines : (edit.replacementIn e t).newLines = [[]] := by
    simp only [TextEdit.replacementIn, if_neg (Nat.not_le.2 hline), h]
    split_ifs
    · rfl
    · simp [Applier.cutAtLineEnd, normalizeLineBreaks, unifyLineBreaks, lines]
  have hstart : (edit.replacementIn e t).range.start.line = edit.range.start.line := by
    simp only [TextEdit.replacementIn, if_neg (Nat.not_le.2 hline), Position.line_decode]
  obtain ⟨s, m, x, ht, hr⟩ := edit.fits_replacementIn e t
  have hamended := amended_eq hr x
  rw [← ht, hlines, show ofLines [[]] = [] from rfl, List.append_nil] at hamended
  rw [hamended]
  constructor
  · rw [ht, List.append_assoc]
    exact (List.sublist_append_right m x).append_left s
  · rw [lineCount_eq_extent, extent_append, BytePosition.line_add]
    rw [hr] at hstart
    have hsame : s.extent.line = edit.range.start.line := hstart
    omega

/-- Deletions leave a part of the text and of the empty lines that they have appended. The first
that finds its line is followed by others that find theirs, since they come by descending start. -/
theorem edited_sublist_of_deletions (h : ∀ edit ∈ edits, edit.newText = [])
    (hdescent : edits.Pairwise fun a b => b.range.start ≤ a.range.start) :
    (t.edited e edits).Sublist (t ++ List.replicate (emptyLines t.lineCount edits) '\n') := by
  induction edits generalizing t with
  | nil => simp [edited, emptyLines]
  | cons edit rest ih =>
    obtain ⟨hstarts, hdescent⟩ := List.pairwise_cons.1 hdescent
    have hedit := h edit List.mem_cons_self
    have hrest := ih (t := t.amended (edit.replacementIn e t))
      (fun x hx => h x (List.mem_cons_of_mem _ hx)) hdescent
    show ((t.amended (edit.replacementIn e t)).edited e rest).Sublist _
    rw [emptyLines]
    split_ifs with hbehind
    · have hamended : t.amended (edit.replacementIn e t) = t ++ ['\n'] := by
        rw [amended_of_lineCount_le hbehind, hedit]
        rfl
      rw [hamended, lineCount_append_break, List.append_assoc] at hrest
      rwa [hamended, List.replicate_succ]
    · obtain ⟨hsublist, hline⟩ :=
        amended_sublist_of_deletion (e := e) hedit (Nat.lt_of_not_le hbehind)
      have hfound : emptyLines (t.amended (edit.replacementIn e t)).lineCount rest = 0 := by
        apply emptyLines_of_lt
        intro x hx
        have hle := Position.le_iff.1 (hstarts x hx)
        omega
      rw [hfound, List.replicate_zero, List.append_nil] at hrest
      simpa using hrest.trans hsublist

/-- The final trim adds nothing. -/
theorem trimmed_sublist_self (config : Config) (fixes : Bool) (t out : Text) :
    (t.trimmed config fixes out).Sublist out := by
  unfold trimmed withoutFinalBreak
  split_ifs
  · exact List.dropLast_sublist out
  · exact List.Sublist.refl out
  · exact List.Sublist.refl out

/-- The final trim takes one line feed of those that were appended. -/
theorem trimmed_sublist {out : Text} {n : Nat} (h : out.Sublist (t ++ List.replicate n '\n'))
    (hends : t.endsInBreak = false) {config : Config} (htrim : config.trimFinalNewline = true) :
    (t.trimmed config true out).Sublist (t ++ List.replicate (n - 1) '\n') := by
  cases n with
  | zero => exact (trimmed_sublist_self config true t out).trans h
  | succ n =>
    have htrimmed : t.trimmed config true out = out.withoutFinalBreak := by
      simp [trimmed, htrim, hends]
    rw [htrimmed]
    rw [List.replicate_succ', ← List.append_assoc] at h
    rw [Nat.add_sub_cancel]
    cases hlast : out.endsInBreak with
    | true =>
      obtain ⟨s, rfl⟩ := List.getLast?_eq_some_iff.1 (of_decide_eq_true hlast)
      have hs : s.Sublist (t ++ List.replicate n '\n') := (List.append_sublist_append_right _).1 h
      simpa [withoutFinalBreak, hlast] using hs
    | false =>
      have hout := sublist_withoutFinalBreak h hlast
      have hbreak : endsInBreak (t ++ List.replicate n '\n' ++ ['\n']) = true := by
        simp [endsInBreak]
      rw [withoutFinalBreak, if_pos hbreak, List.dropLast_concat] at hout
      rwa [withoutFinalBreak, if_neg (by simp [hlast])]

end Text

/-! ## The batches -/

namespace Applier

variable {w : World Editor} {id : BufferId} {b : Buffer}

/-- What a batch leaves of the text, also if there is no edit in it. -/
theorem exists_text?_applyTextEdits (hbuffer : w.host.buffer? id = some b) (config : Config)
    (e : Encoding) (edits : List TextEdit) :
    ∃ w', applyTextEdits ⟨Editor.asHost, config, e⟩ id edits w = .ok () w' ∧
      w'.host.text? id = some (b.text.trimmed config b.fixesEndOfLine
        (b.text.edited e (applicationOrder edits))) := by
  by_cases hedits : edits = []
  · subst hedits
    refine ⟨w, rfl, ?_⟩
    have hnone : b.text.edited e (applicationOrder []) = b.text := rfl
    rw [hnone, Text.trimmed_self, Editor.text?, hbuffer, Option.map_some]
  · exact text?_applyTextEdits config e hbuffer hedits

/-- Applying insertions to an open buffer succeeds, wherever they are, and all of the text is still
there, in its order. Apart from line feeds, the text has these characters and those that the edits
put in, and no others. -/
theorem applyTextEdits_insertions (hbuffer : w.host.buffer? id = some b) (config : Config)
    (e : Encoding) {edits : List TextEdit} (hinsertions : ∀ edit ∈ edits, edit.IsInsertion) :
    ∃ w' t, applyTextEdits ⟨Editor.asHost, config, e⟩ id edits w = .ok () w' ∧
      w'.host.text? id = some t ∧ b.text.Sublist t ∧
      t.unbroken.Perm (b.text.unbroken ++
        edits.flatMap fun edit => edit.newText.filter fun c => c ≠ '\n' ∧ c ≠ '\r') := by
  have hordered : ∀ x ∈ applicationOrder edits, x.IsInsertion := by
    intro x hx
    obtain ⟨edit, hedit, rfl⟩ := mem_applicationOrder.1 hx
    rw [TextEdit.normalized_of_isInsertion (hinsertions edit hedit)]
    exact hinsertions edit hedit
  obtain ⟨hkept, hnew⟩ := Text.sublist_edited_of_insertions (e := e) (t := b.text) hordered
  have hnewTexts : ((applicationOrder edits).flatMap
        fun edit => edit.newText.unifyLineBreaks.unbroken).Perm
      (edits.flatMap fun edit => edit.newText.filter fun c => c ≠ '\n' ∧ c ≠ '\r') := by
    simp only [Text.unbroken_unifyLineBreaks]
    have hperm := (perm_applicationOrder edits).flatMap_right fun edit =>
      edit.newText.filter fun c => c ≠ '\n' ∧ c ≠ '\r'
    rwa [List.flatMap_map] at hperm
  obtain ⟨w', hrun, htext⟩ := exists_text?_applyTextEdits hbuffer config e edits
  refine ⟨w', _, hrun, htext, Text.sublist_trimmed_self hkept config _, ?_⟩
  rw [Text.unbroken_trimmed]
  exact hnew.trans (hnewTexts.append_left _)

/-- Insertions past the end of a line, inside a character, and behind the last line, where the final
line feed is taken away again. -/
theorem applyTextEdits_insertions_overshoot :
    let t : Text := ['a', 'é', '\n', 'b']
    let edits : List TextEdit := [⟨⟨⟨0, 9⟩, ⟨0, 9⟩⟩, ['x', '\r', '\n']⟩,
      ⟨⟨⟨0, 2⟩, ⟨0, 2⟩⟩, ['\r', 'y']⟩, ⟨⟨⟨7, 3⟩, ⟨7, 3⟩⟩, ['z', '\n', '\n']⟩]
    let w : World Editor := ⟨(Editor.empty.insertBuffer ⟨[]⟩ t).2, .empty⟩
    (∀ edit ∈ edits, edit.IsInsertion) ∧
      ∃ w' t', applyTextEdits ⟨Editor.asHost, .standard, .utf8⟩ ⟨1⟩ edits w = .ok () w' ∧
        w'.host.text? ⟨1⟩ = some t' ∧ t.Sublist t' ∧
        t'.unbroken.Perm ['a', 'é', 'b', 'x', 'y', 'z'] := by
  intro t edits w
  have hinsertions : ∀ edit ∈ edits, edit.IsInsertion := by decide
  have hbuffer : w.host.buffer? ⟨1⟩ = some (Buffer.new ⟨1⟩ ⟨[]⟩ t) := rfl
  exact ⟨hinsertions, applyTextEdits_insertions hbuffer .standard .utf8 hinsertions⟩

/-- No more lines are appended than there are edits with both ends on lines behind the last. -/
theorem emptyLines_applicationOrder_le (lineCount : Nat) (edits : List TextEdit) :
    emptyLines lineCount (applicationOrder edits) ≤
      edits.countP fun edit =>
        lineCount ≤ edit.range.start.line ∧ lineCount ≤ edit.range.stop.line := by
  refine (emptyLines_le lineCount _).trans ?_
  rw [(perm_applicationOrder edits).countP_eq, List.countP_map]
  apply List.countP_mono_left
  intro edit _ hbehind
  have hbehind : lineCount ≤ edit.range.normalized.start.line := of_decide_eq_true hbehind
  have horder : edit.range.normalized.start ≤ edit.range.normalized.stop := edit.start_le_stop
  rw [Position.le_iff] at horder
  rw [decide_eq_true_eq]
  rcases edit.range.normalized_cases with heq | heq <;> rw [heq] at hbehind horder
  · exact ⟨hbehind, by omega⟩
  · exact ⟨by simp only at hbehind horder; omega, hbehind⟩

/-- Applying deletions to an open buffer succeeds, wherever they are. What is left is a part of the
text, in its order, and of the empty lines that were appended for edits behind the last line; of
these the final trim takes one away, if it is asked for and the text did not end in an empty
line. -/
theorem applyTextEdits_deletions (hbuffer : w.host.buffer? id = some b) (config : Config)
    (e : Encoding) {edits : List TextEdit} (hdeletions : ∀ edit ∈ edits, edit.newText = []) :
    ∃ w' t, applyTextEdits ⟨Editor.asHost, config, e⟩ id edits w = .ok () w' ∧
      w'.host.text? id = some t ∧
      t.Sublist (b.text ++
        List.replicate (emptyLines b.text.lineCount (applicationOrder edits)) '\n') ∧
      (config.trimFinalNewline = true → b.fixesEndOfLine = true → b.text.endsInBreak = false →
        t.Sublist (b.text ++
          List.replicate (emptyLines b.text.lineCount (applicationOrder edits) - 1) '\n')) ∧
      emptyLines b.text.lineCount (applicationOrder edits) ≤
        edits.countP fun edit => b.text.lineCount ≤ edit.range.start.line ∧
          b.text.lineCount ≤ edit.range.stop.line := by
  have hordered : ∀ x ∈ applicationOrder edits, x.newText = [] := by
    intro x hx
    obtain ⟨edit, hedit, rfl⟩ := mem_applicationOrder.1 hx
    exact hdeletions edit hedit
  have hleft := Text.edited_sublist_of_deletions (e := e) (t := b.text) hordered
    (pairwise_start_applicationOrder edits)
  obtain ⟨w', hrun, htext⟩ := exists_text?_applyTextEdits hbuffer config e edits
  refine ⟨w', _, hrun, htext, (Text.trimmed_sublist_self config _ _ _).trans hleft, ?_,
    emptyLines_applicationOrder_le _ edits⟩
  intro htrim hfixes hends
  rw [hfixes]
  exact Text.trimmed_sublist hleft hends htrim

/-- Deletions that overlap, the one reversed, the other beyond the end of its line, and one behind
the last line, whose empty line is trimmed. -/
theorem applyTextEdits_deletions_overlapping :
    let t : Text := ['a', 'é', '\n', 'b', 'c']
    let edits : List TextEdit := [⟨⟨⟨1, 1⟩, ⟨0, 1⟩⟩, []⟩, ⟨⟨⟨0, 0⟩, ⟨0, 9⟩⟩, []⟩,
      ⟨⟨⟨7, 3⟩, ⟨5, 0⟩⟩, []⟩]
    let w : World Editor := ⟨(Editor.empty.insertBuffer ⟨[]⟩ t).2, .empty⟩
    (∀ edit ∈ edits, edit.newText = []) ∧
      ∃ w' t', applyTextEdits ⟨Editor.asHost, .standard, .utf8⟩ ⟨1⟩ edits w = .ok () w' ∧
        w'.host.text? ⟨1⟩ = some t' ∧ t'.Sublist t := by
  intro t edits w
  have hdeletions : ∀ edit ∈ edits, edit.newText = [] := by decide
  have hbuffer : w.host.buffer? ⟨1⟩ = some (Buffer.new ⟨1⟩ ⟨[]⟩ t) := rfl
  have hlines : emptyLines t.lineCount (applicationOrder edits) = 1 := by
    rw [applicationOrder_eq]
    decide +kernel
  obtain ⟨w', t', hrun, htext, -, htrim, -⟩ :=
    applyTextEdits_deletions hbuffer .standard .utf8 hdeletions
  have hleft := htrim rfl rfl rfl
  rw [show (Buffer.new ⟨1⟩ ⟨[]⟩ t).text = t from rfl, hlines] at hleft
  exact ⟨hdeletions, w', t', hrun, htext, by simpa using hleft⟩

/-- A deletion behind the last line of a text that ends in an empty line: it appends another. -/
theorem applyTextEdits_deletions_append :
    let t : Text := ['a', '\n']
    let edits : List TextEdit := [⟨⟨⟨5, 0⟩, ⟨6, 0⟩⟩, []⟩]
    let w : World Editor := ⟨(Editor.empty.insertBuffer ⟨[]⟩ t).2, .empty⟩
    ∃ w', applyTextEdits ⟨Editor.asHost, .standard, .utf8⟩ ⟨1⟩ edits w = .ok () w' ∧
      w'.host.text? ⟨1⟩ = some ['a', '\n', '\n'] ∧ ¬ List.Sublist ['a', '\n', '\n'] t := by
  intro t edits w
  have hbuffer : w.host.buffer? ⟨1⟩ = some (Buffer.new ⟨1⟩ ⟨[]⟩ t) := rfl
  obtain ⟨w', hrun, htext⟩ := exists_text?_applyTextEdits hbuffer .standard .utf8 edits
  exact ⟨w', hrun, by rw [htext]; decide +kernel, by decide⟩

end Applier

end WorkspaceEditing
