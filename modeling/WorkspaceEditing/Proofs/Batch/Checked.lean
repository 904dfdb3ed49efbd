import WorkspaceEditing.Proofs.Batch.Run

/-!
# No subtraction of a batch goes below zero

A machine number has nothing below zero, so a subtraction that would go there has to stop the
program. Here the functions that subtract line numbers and columns while a batch is applied are
written once more with subtractions that can fail, and shown to be the same functions: a range that
is replaced ends no earlier than it starts, at least one line takes its place, and the last line is
looked up in buffers of several lines only.

## Main definitions

* `difference?` — a subtraction that fails below zero.
* `ByteRange.lineSpan?`, `BytePosition.shifted?`, `Mark.followed?` — the arithmetic of lines and
  columns with it.
* `Editor.asCheckedHost`, `Applier.applyTextEditsChecked` — the editor and the batch with it.

## Main results

* `Editor.asCheckedHost_eq` — moving marks never goes below zero, for any range.
* `Applier.applyTextEditsChecked_ok` — no batch makes a subtraction or a call fail.
-/

namespace WorkspaceEditing

open Protocol

/-! ## Subtractions that can fail -/

/-- The difference of two numbers, if it is not below zero. -/
def difference? (a b : Nat) : Option Nat := if b ≤ a then some (a - b) else none

theorem difference?_eq_some {a b : Nat} (h : b ≤ a) : difference? a b = some (a - b) := if_pos h

/-- The number of lines that a range touches. -/
def ByteRange.lineSpan? (r : ByteRange) : Option Nat :=
  (difference? r.normalized.stop.line r.normalized.start.line).map (· + 1)

/-- Where the text at a position goes when a range is replaced. -/
def BytePosition.shifted? (p : BytePosition) (r : ByteRange) (newLines : List Text) :
    Option BytePosition :=
  if p ≤ r.stop then some p
  else do
    let span ← r.lineSpan?
    let line ← difference? (p.line + newLines.length) span
    if p.line = r.stop.line then
      let behind ← difference? p.column r.stop.column
      let column := behind + (newLines.getLastD []).byteLength
      some ⟨line, if newLines.length = 1 then column + r.start.column else column⟩
    else some ⟨line, p.column⟩

/-- Where a mark goes when a range that touches `span` lines is replaced, if it stays. -/
def Mark.followed? (r : ByteRange) (span newLines lineCount : Nat) (m : Mark) :
    Option (Option Mark) :=
  let line := m.position.line
  let kept := if line < lineCount then some m else none
  if line > r.stop.line then do
    let moved ← difference? (line + newLines) span
    some (if moved < lineCount then some { m with position := ⟨moved, m.position.column⟩ } else none)
  else if line > r.start.line then do
    let inside ← difference? line r.start.line
    some (if inside ≥ newLines then none else kept)
  else some kept

/-- The marks that stay after a range that touches `span` lines was replaced. -/
def Marks.followed? (r : ByteRange) (span newLines lineCount : Nat) : Marks → Option Marks
  | [] => some []
  | m :: rest => do
    let moved ← m.followed? r span newLines lineCount
    let others ← followed? r span newLines lineCount rest
    some (moved.toList ++ others)

/-- The buffer with the range of its text replaced by lines. -/
def Buffer.replaceChecked? (b : Buffer) (r : ByteRange) (newLines : List Text) : Option Buffer := do
  let text ← Text.replace? r (Text.ofLines newLines) b.text
  let span ← r.lineSpan?
  let marks ← b.marks.followed? r span (max newLines.length 1) text.lineCount
  some { b with text, marks }

namespace Editor

/-- Replaces a range of a buffer's text by lines. -/
def setTextChecked (e : Editor) (id : BufferId) (r : ByteRange) (newLines : List Text) :
    Except HostError Editor := do
  let b ← e.buffer id
  match b.replaceChecked? r newLines with
  | some changed => pure ((e.putBuffer changed).clampCursors changed)
  | none => throw (.outOfBounds id r)

/-- The editor as a host that refuses a replacement if a subtraction would go below zero. -/
def asCheckedHost : Host Editor :=
  { asHost with setText := fun id r newLines => HostAction.update (·.setTextChecked id r newLines) }

end Editor

namespace Applier

variable {σ : Type}

/-- The value of arithmetic that concerns a range of a buffer, or an error if there is none. -/
def orFail {α : Type} (buffer : BufferId) (range : ByteRange) : Option α → HostAction σ α
  | some value => pure value
  | none => throw (.outOfBounds buffer range)

/-- Whether a buffer has several lines, the last of them empty. -/
def endsWithEmptyLineChecked (a : Applier σ) (buffer : BufferId) : HostAction σ Bool := do
  let lineCount ← a.host.lineCount buffer
  if lineCount < 2 then return false
  else
    let last ← orFail buffer (.point .origin) (difference? lineCount 1)
    return (← a.host.line buffer last) = some []

/-- Removes an empty last line, if writing the buffer adds a line break at its end. -/
def trimFinalEmptyLineChecked (a : Applier σ) (buffer : BufferId) : HostAction σ Unit := do
  if !(← a.host.fixesEndOfLine buffer) then return
  if !(← a.endsWithEmptyLineChecked buffer) then return
  let last ← orFail buffer (.point .origin) (difference? (← a.host.lineCount buffer) 1)
  let previous ← orFail buffer (.point .origin) (difference? last 1)
  let lengthBefore ← a.lineLength buffer previous
  a.host.setText buffer ⟨⟨previous, lengthBefore⟩, ⟨last, 0⟩⟩ [[]]

/-- Applies one edit, its range in order. -/
def applyTextEditChecked (a : Applier σ) (buffer : BufferId) (edit : TextEdit)
    (cursor : Option BytePosition) : HostAction σ (Option BytePosition) := do
  let newText := edit.newText.normalizeLineBreaks
  let lineCount ← a.host.lineCount buffer
  if lineCount ≤ edit.range.start.line then
    a.append buffer lineCount newText.lines
    return cursor
  let startText ← a.host.line buffer edit.range.start.line
  let start := edit.range.start.decode startText a.encoding
  let stopText ←
    if edit.range.stop.line = edit.range.start.line then pure startText
    else a.host.line buffer edit.range.stop.line
  let stop := edit.range.stop.decode stopText a.encoding
  let (stop, newLines) ←
    if lineCount - 1 < stop.line then do
      let last := lineCount - 1
      pure ((⟨last, ← a.lineLength buffer last⟩ : BytePosition), newText.lines)
    else pure (cutAtLineEnd stop stopText newText)
  let range : ByteRange := ⟨start, start.latest stop⟩
  a.host.setText buffer range newLines
  match cursor with
  | some c => return some (← orFail buffer range (c.shifted? range newLines))
  | none => return none

/-- Applies edits one after the other. -/
def applyInOrderChecked (a : Applier σ) (buffer : BufferId) :
    List TextEdit → Option BytePosition → HostAction σ (Option BytePosition)
  | [], cursor => pure cursor
  | edit :: rest, cursor => do
    a.applyInOrderChecked buffer rest (← a.applyTextEditChecked buffer edit cursor)

/-- Applies a batch of text edits to a buffer. -/
def applyTextEditsChecked (a : Applier σ) (buffer : BufferId) (edits : List TextEdit) :
    HostAction σ Unit := do
  if edits = [] then return
  a.host.setListed buffer
  let cursor ← a.trackedCursor buffer
  let saved ← if a.config.restoreMarks then a.host.letterMarks buffer else pure []
  let hadEmptyLine ← a.endsWithEmptyLineChecked buffer
  let cursor ← a.applyInOrderChecked buffer (applicationOrder edits) cursor
  if a.config.trimFinalNewline && !hadEmptyLine then a.trimFinalEmptyLineChecked buffer
  a.host.repairMarks buffer saved
  match cursor with
  | some position => a.host.restoreCursor position
  | none => pure ()

end Applier

/-! ## Lines and columns -/

/-- With its ends in order, a range never ends on a line above that on which it starts. -/
@[simp] theorem ByteRange.lineSpan?_eq (r : ByteRange) : r.lineSpan? = some r.lineSpan := by
  have hle : r.normalized.start.line ≤ r.normalized.stop.line := by
    have := r.normalized_start_le_stop
    grind
  rw [ByteRange.lineSpan?, difference?_eq_some hle]
  rfl

/-- A range in order touches no more lines than there are down to its end. -/
theorem ByteRange.lineSpan_le {r : ByteRange} (h : r.start ≤ r.stop) :
    r.lineSpan ≤ r.stop.line + 1 := by
  rw [ByteRange.lineSpan, ByteRange.normalized_of_le h]
  omega

/-- A position behind a range in order lies no higher than its end, and on the line of the end no
further to the left. -/
theorem BytePosition.shifted?_eq {r : ByteRange} (h : r.start ≤ r.stop) {newLines : List Text}
    (hlines : newLines ≠ []) (p : BytePosition) :
    p.shifted? r newLines = some (p.shifted r newLines) := by
  unfold BytePosition.shifted? BytePosition.shifted
  by_cases hp : p ≤ r.stop
  · rw [if_pos hp, if_pos hp]
  · rw [if_neg hp, if_neg hp]
    rw [BytePosition.le_def] at hp
    have hspan : r.lineSpan ≤ p.line + newLines.length := by
      have hle := ByteRange.lineSpan_le h
      have hpos := List.length_pos_of_ne_nil hlines
      omega
    simp only [ByteRange.lineSpan?_eq, difference?_eq_some hspan, Option.bind_eq_bind,
      Option.bind_some]
    by_cases hline : p.line = r.stop.line
    · have hcolumn : r.stop.column ≤ p.column := by omega
      rw [if_pos hline, if_pos hline, difference?_eq_some hcolumn]
      rfl
    · rw [if_neg hline, if_neg hline]

theorem Mark.followed?_eq {r : ByteRange} (h : r.start ≤ r.stop) (newLines lineCount : Nat)
    (m : Mark) : m.followed? r r.lineSpan newLines lineCount =
      some (m.followed r newLines lineCount) := by
  simp only [Mark.followed?, Mark.followed]
  by_cases hbelow : m.position.line > r.stop.line
  · have hspan : r.lineSpan ≤ m.position.line + newLines := by
      have hle := ByteRange.lineSpan_le h
      omega
    rw [if_pos hbelow, if_pos hbelow, difference?_eq_some hspan]
    rfl
  · rw [if_neg hbelow, if_neg hbelow]
    by_cases hinside : m.position.line > r.start.line
    · rw [if_pos hinside, difference?_eq_some (Nat.le_of_lt hinside)]
      simp only [hinside, true_and]
      rfl
    · simp only [hinside, false_and, if_false]

theorem Marks.followed?_eq {r : ByteRange} (h : r.start ≤ r.stop) (newLines lineCount : Nat)
    (ms : Marks) : ms.followed? r r.lineSpan newLines lineCount =
      some (ms.followed r newLines lineCount) := by
  induction ms with
  | nil => rfl
  | cons m rest ih =>
    rw [Marks.followed?, Mark.followed?_eq h, ih]
    simp only [Marks.followed, List.filterMap_cons]
    cases m.followed r newLines lineCount <;> rfl

/-- A replacement that the text takes moves the marks without going below zero, and one that the
text does not take moves none. -/
theorem Buffer.replaceChecked?_eq (b : Buffer) (r : ByteRange) (newLines : List Text) :
    b.replaceChecked? r newLines = b.replace? r newLines := by
  unfold Buffer.replaceChecked? Buffer.replace?
  cases htext : Text.replace? r (Text.ofLines newLines) b.text with
  | none => rfl
  | some text =>
    obtain ⟨s, m, x, -, rfl, -⟩ := Text.replace?_eq_some_iff.1 htext
    have hle : s.extent ≤ (s ++ m).extent := Text.extent_le_append s m
    simp only [Option.bind_eq_bind, Option.bind_some, ByteRange.lineSpan?_eq,
      Marks.followed?_eq (r := ⟨s.extent, (s ++ m).extent⟩) hle]
    rfl

/-- Moving the marks of a buffer never goes below zero, for any range. -/
theorem Editor.asCheckedHost_eq : Editor.asCheckedHost = Editor.asHost := by
  have hset : (fun id r newLines => HostAction.update (·.setTextChecked id r newLines)) =
      Editor.asHost.setText := by
    funext id r newLines
    have hcall (e : Editor) : e.setTextChecked id r newLines = e.setText id r newLines := by
      refine bind_congr fun b => ?_
      have hreplace := b.replaceChecked?_eq r newLines
      generalize b.replaceChecked? r newLines = changed at hreplace
      subst hreplace
      rfl
    exact congrArg HostAction.update (funext hcall)
  rw [Editor.asCheckedHost, hset]

/-! ## The batch -/

theorem BytePosition.le_latest (p q : BytePosition) : p ≤ p.latest q := by
  unfold BytePosition.latest
  split
  · assumption
  · exact BytePosition.le_refl p

namespace Applier

/-- The cursor is only shifted by ranges in order, with lines to take their place. -/
theorem applyTextEditChecked_eq {σ : Type} (a : Applier σ) (buffer : BufferId) (edit : TextEdit)
    (cursor : Option BytePosition) :
    a.applyTextEditChecked buffer edit cursor = a.applyTextEdit buffer edit cursor := by
  -- what is done with the range and the lines, once they are found
  have hend (start stop : BytePosition) {newLines : List Text} (hlines : newLines ≠ []) :
      (do
        a.host.setText buffer ⟨start, start.latest stop⟩ newLines
        match cursor with
        | some c =>
          return some (← orFail buffer ⟨start, start.latest stop⟩
            (c.shifted? ⟨start, start.latest stop⟩ newLines))
        | none => return none) =
      (do
        a.host.setText buffer ⟨start, start.latest stop⟩ newLines
        return cursor.map (·.shifted ⟨start, start.latest stop⟩ newLines)) := by
    refine bind_congr fun _ => ?_
    cases cursor with
    | none => rfl
    | some c =>
      have hle : start ≤ start.latest stop := BytePosition.le_latest start stop
      simp only [BytePosition.shifted?_eq (r := ⟨start, start.latest stop⟩) hle hlines]
      rfl
  unfold applyTextEditChecked applyTextEdit
  refine bind_congr fun lineCount => ?_
  dsimp only
  by_cases hbehind : lineCount ≤ edit.range.start.line
  · rw [if_pos hbehind, if_pos hbehind]
  · rw [if_neg hbehind, if_neg hbehind]
    refine bind_congr fun startText => ?_
    refine ite_congr rfl (fun _ => bind_congr fun stopText => ?_)
      fun _ => bind_congr fun stopText => ?_
    all_goals
      refine ite_congr rfl (fun _ => bind_congr fun length => ?_) fun _ => ?_
      · exact hend _ _ (Text.lines_ne_nil _)
      · exact hend _ _ (cutAtLineEnd_lines_ne_nil _ _ _)

theorem applyInOrderChecked_eq {σ : Type} (a : Applier σ) (buffer : BufferId)
    (edits : List TextEdit) (cursor : Option BytePosition) :
    a.applyInOrderChecked buffer edits cursor = a.applyInOrder buffer edits cursor := by
  induction edits generalizing cursor with
  | nil => rfl
  | cons edit rest ih =>
    rw [applyInOrderChecked, applyInOrder, applyTextEditChecked_eq]
    exact bind_congr fun cursor => ih cursor

/-- The last line is looked for in buffers of several lines only. -/
theorem endsWithEmptyLineChecked_eq {σ : Type} (a : Applier σ) (buffer : BufferId) :
    a.endsWithEmptyLineChecked buffer = a.endsWithEmptyLine buffer := by
  unfold endsWithEmptyLineChecked endsWithEmptyLine
  refine bind_congr fun lineCount => ?_
  by_cases hfew : lineCount < 2
  · rw [if_pos hfew, if_pos hfew]
  · have hlast := difference?_eq_some (a := lineCount) (b := 1) (by omega)
    rw [if_neg hfew, if_neg hfew, hlast]
    rfl

variable (config : Config) (e : Encoding) (id : BufferId)

/-- The empty last line is removed from buffers of several lines only. -/
theorem trimFinalEmptyLineChecked_eq :
    trimFinalEmptyLineChecked ⟨Editor.asHost, config, e⟩ id =
      trimFinalEmptyLine ⟨Editor.asHost, config, e⟩ id := by
  funext w
  unfold trimFinalEmptyLineChecked trimFinalEmptyLine
  simp only [endsWithEmptyLineChecked_eq]
  cases h : w.host.buffer? id with
  | none =>
    have hfixes : Editor.asHost.fixesEndOfLine id w = .error (.unknownBuffer id) w := by
      show HostAction.look (·.fixesEndOfLine id) w = _
      rw [HostAction.look, Editor.fixesEndOfLine, Editor.buffer, h]
      rfl
    rw [bind_of_error hfixes, bind_of_error hfixes]
  | some b =>
    have hfixes := Editor.fixesEndOfLine_ok h
    have hempty := endsWithEmptyLine_ok config e h
    rw [bind_of_ok hfixes, bind_of_ok hfixes]
    cases b.fixesEndOfLine with
    | false => rfl
    | true =>
      rw [if_neg (by decide), if_neg (by decide), bind_of_ok hempty,
        bind_of_ok hempty]
      cases hend : b.text.endsInBreak with
      | false => rfl
      | true =>
        have hcount : 2 ≤ b.text.lineCount := Nat.le_of_not_lt (Text.endsInBreak_iff.1 hend).1
        have hlast := difference?_eq_some (a := b.text.lineCount) (b := 1) (by omega)
        have hprevious := difference?_eq_some (a := b.text.lineCount - 1) (b := 1) (by omega)
        rw [if_neg (by decide), if_neg (by decide), bind_of_ok (Editor.lineCount_ok h),
          bind_of_ok (Editor.lineCount_ok h), hlast]
        dsimp only [orFail]
        rw [pure_bind, hprevious]
        rfl

/-- With subtractions that can fail, a batch does what it does. -/
theorem applyTextEditsChecked_eq (edits : List TextEdit) :
    applyTextEditsChecked ⟨Editor.asCheckedHost, config, e⟩ id edits =
      applyTextEdits ⟨Editor.asHost, config, e⟩ id edits := by
  rw [Editor.asCheckedHost_eq]
  unfold applyTextEditsChecked applyTextEdits
  have hrun := applyInOrderChecked_eq ⟨Editor.asHost, config, e⟩ id (applicationOrder edits)
  have hempty := endsWithEmptyLineChecked_eq ⟨Editor.asHost, config, e⟩ id
  have htrim := trimFinalEmptyLineChecked_eq config e id
  apply ite_congr rfl (fun _ => rfl)
  intro _
  refine bind_congr fun _ => bind_congr fun cursor => ?_
  -- what is done once the marks are saved
  have hedits (saved : List Mark) : (do
      let hadEmptyLine ← endsWithEmptyLineChecked ⟨Editor.asHost, config, e⟩ id
      let cursor ← applyInOrderChecked ⟨Editor.asHost, config, e⟩ id (applicationOrder edits) cursor
      if config.trimFinalNewline && !hadEmptyLine then
        trimFinalEmptyLineChecked ⟨Editor.asHost, config, e⟩ id
      Editor.asHost.repairMarks id saved
      match cursor with
      | some position => Editor.asHost.restoreCursor position
      | none => pure ()) = (do
      let hadEmptyLine ← endsWithEmptyLine ⟨Editor.asHost, config, e⟩ id
      let cursor ← applyInOrder ⟨Editor.asHost, config, e⟩ id (applicationOrder edits) cursor
      if config.trimFinalNewline && !hadEmptyLine then
        trimFinalEmptyLine ⟨Editor.asHost, config, e⟩ id
      Editor.asHost.repairMarks id saved
      match cursor with
      | some position => Editor.asHost.restoreCursor position
      | none => pure ()) := by
    rw [hempty, hrun cursor, htrim]
  exact ite_congr rfl (fun _ => bind_congr hedits) fun _ => hedits []

/-- A batch of edits of an open buffer never fails, whatever places the edits name: no call to
replace text or to move the cursor is refused, and no subtraction goes below zero. Sums are not
checked, as numbers have no bound here: in machine words they need one, and with all marks on lines
below `2⁵³` a batch adds far too few lines to reach the end of a word. -/
theorem applyTextEditsChecked_ok {w : World Editor} {b : Buffer} (h : w.host.buffer? id = some b)
    (edits : List TextEdit) :
    ∃ w', applyTextEditsChecked ⟨Editor.asCheckedHost, config, e⟩ id edits w = .ok () w' ∧
      applyTextEdits ⟨Editor.asHost, config, e⟩ id edits w = .ok () w' := by
  rw [applyTextEditsChecked_eq]
  by_cases hedits : edits = []
  · subst hedits
    exact ⟨w, rfl, rfl⟩
  · obtain ⟨host, -, -, hrun⟩ := applyTextEdits_ok config e h hedits
    exact ⟨_, hrun, hrun⟩

/-- Edits with their ends swapped, inside a character, past the end of a line, over each other and
past the last line. -/
theorem applyTextEditsChecked_ok_malformed :
    let b : Buffer := .new ⟨1⟩ ⟨[]⟩ ['a', '😀', '\n', 'b']
    let w : World Editor := ⟨(Editor.empty.insertBuffer b.path b.text).2, .empty⟩
    let edits : List TextEdit :=
      [⟨⟨⟨1, 9⟩, ⟨0, 2⟩⟩, ['\r']⟩, ⟨⟨⟨0, 1⟩, ⟨7, 0⟩⟩, []⟩, ⟨⟨⟨4, 0⟩, ⟨3, 5⟩⟩, ['x']⟩]
    w.host.buffer? ⟨1⟩ = some b ∧
      ∃ w', applyTextEditsChecked ⟨Editor.asCheckedHost, .standard, .utf16⟩ ⟨1⟩ edits w = .ok () w' ∧
        applyTextEdits ⟨Editor.asHost, .standard, .utf16⟩ ⟨1⟩ edits w = .ok () w' := by
  intro b w edits
  have h : w.host.buffer? ⟨1⟩ = some b := rfl
  exact ⟨h, applyTextEditsChecked_ok .standard .utf16 ⟨1⟩ h edits⟩

end Applier

end WorkspaceEditing
