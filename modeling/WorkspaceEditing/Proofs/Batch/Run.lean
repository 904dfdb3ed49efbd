import WorkspaceEditing.Proofs.Batch.After

/-!
# The run of a batch

Every step of a batch reads the buffer, and then makes no call that changes anything, or a single
one. So the calls that change something are known from the buffer, the batch and the configuration,
and so is what they leave.

## Main definitions

* `Text.callsToEdit`, `Buffer.callsToTrim`, `Buffer.callsToRepair`, `Text.callsToMove` — the calls
  of the steps.
* `Buffer.callsOfBatch` — the calls of a batch.

## Main results

* `Applier.applyTextEdits_does` — the calls of a batch, in any account of what actions do.
* `Applier.applyTextEdits_eq` — what a batch applied to an open buffer leaves of the editor.
* `Applier.applyTextEdits_ok` — it succeeds, and touches nothing but the buffer.
-/

namespace WorkspaceEditing

open Protocol Session

/-! ## The calls of a batch -/

/-- The calls that carry edits out, each in the text that the one before has left. -/
def Text.callsToEdit (e : Encoding) (id : BufferId) : Text → List TextEdit → List Call
  | _, [] => []
  | t, edit :: rest =>
    let r := edit.replacementIn e t
    .setText id r.range r.newLines :: callsToEdit e id (t.amended r) rest

/-- The call that removes an empty last line, if writing the buffer adds a line break. -/
def Buffer.callsToTrim (b : Buffer) : List Call :=
  if b.fixesEndOfLine && b.text.endsInBreak then
    [.setText b.id b.text.finalBreak.range b.text.finalBreak.newLines]
  else []

/-- The call that sets those of the saved marks again that are lost. -/
def Buffer.callsToRepair (b : Buffer) (saved : List Mark) : List Call :=
  if b.lost saved = [] then [] else [.setMarks b.id (b.lost saved)]

/-- The call that puts the cursor at a position, if the text has it. -/
def Text.callsToMove (t : Text) : Option BytePosition → List Call
  | some p => if t.holds p then [.setCursor p] else []
  | none => []

/-- The marks that a batch saves. -/
def Buffer.saved (config : Config) (b : Buffer) : List Mark :=
  if config.restoreMarks then b.marks.filter (·.isLocalLetter) else []

/-- Whether a batch removes an empty last line: the configuration has to ask for it, and there may
have been none before. -/
def Buffer.isTrimmed (config : Config) (b : Buffer) : Bool :=
  config.trimFinalNewline && !b.text.endsInBreak

/-- The buffer that the edits of a batch leave. -/
def Buffer.afterEdits (e : Encoding) (b : Buffer) (edits : List TextEdit) : Buffer :=
  Buffer.edited e { b with listed := true } (applicationOrder edits)

/-- The buffer that a batch leaves before marks are set again. -/
def Buffer.afterTrim (config : Config) (e : Encoding) (b : Buffer) (edits : List TextEdit) :
    Buffer :=
  if b.isTrimmed config then (b.afterEdits e edits).trimmed else b.afterEdits e edits

/-- The calls of a batch that change something, where a cursor is kept track of. -/
def Buffer.callsOfBatch (config : Config) (e : Encoding) (b : Buffer) (edits : List TextEdit)
    (cursor : Option BytePosition) : List Call :=
  let order := applicationOrder edits
  .setListed b.id :: (b.text.callsToEdit e b.id order ++
    ((if b.isTrimmed config then (b.afterEdits e edits).callsToTrim else []) ++
      ((b.afterTrim config e edits).callsToRepair (b.saved config) ++
        (b.afterBatch config e edits).text.callsToMove (cursor.map (b.text.carried e order)))))

theorem Buffer.afterBatch_eq_repaired (config : Config) (e : Encoding) (b : Buffer)
    (edits : List TextEdit) :
    b.afterBatch config e edits = (b.afterTrim config e edits).repaired (b.saved config) := by
  unfold Buffer.afterBatch Buffer.saved
  cases config.restoreMarks <;> rfl

@[simp] theorem Buffer.id_afterEdits (e : Encoding) (b : Buffer) (edits : List TextEdit) :
    (b.afterEdits e edits).id = b.id := Buffer.id_edited e _ _

@[simp] theorem Buffer.id_afterTrim (config : Config) (e : Encoding) (b : Buffer)
    (edits : List TextEdit) : (b.afterTrim config e edits).id = b.id := by
  unfold Buffer.afterTrim
  split_ifs <;> simp

theorem Editor.focusedBuffer?_of_tracked? {editor : Editor} {config : Config} {id : BufferId}
    {p : BytePosition} (h : editor.tracked? config id = some p) :
    editor.focusedBuffer? = some id := by
  rw [Editor.tracked?] at h
  split at h
  · rename_i hfocus
    exact hfocus.2
  · simp at h

/-! ## What the calls leave

The editor is given by the one before the batch, in which one buffer has another state and the
cursors in it have moved. -/

section

variable {base : Editor} {opened b : Buffer} {id : BufferId}
  (hopen : base.buffer? id = some opened) (hid : b.id = id)
  (move : WindowId → BytePosition → BytePosition) (disk : Disk)
include hopen hid

theorem Text.foldl_callsToEdit (e : Encoding) (edits : List TextEdit) :
    (b.text.callsToEdit e id edits).foldl callWorld ⟨base.adapted b move, disk⟩ =
      ⟨base.adapted (b.edited e edits) fun i c => b.text.kept e edits (move i c), disk⟩ := by
  induction edits generalizing b move with
  | nil => rfl
  | cons edit rest ih =>
    have h : (base.adapted b move).buffer? id = some b := Editor.buffer?_adapted hopen hid
    have hset := Editor.callWorld_setText (w := ⟨base.adapted b move, disk⟩) h
      (edit.fits_replacementIn e b.text)
    rw [Editor.amended_eq, Editor.adapted_adapted _ (by rfl)] at hset
    rw [Text.callsToEdit, List.foldl_cons, hset]
    exact ih (b := b.amended (edit.replacementIn e b.text)) hid _

theorem Buffer.foldl_callsToTrim :
    b.callsToTrim.foldl callWorld ⟨base.adapted b move, disk⟩ =
      ⟨base.adapted b.trimmed fun i c => b.keptTrimmed (move i c), disk⟩ := by
  have h : (base.adapted b move).buffer? id = some b := Editor.buffer?_adapted hopen hid
  unfold Buffer.callsToTrim Buffer.keptTrimmed Buffer.trimmed
  by_cases hend : (b.fixesEndOfLine && b.text.endsInBreak) = true
  · have hset := Editor.callWorld_setText (w := ⟨base.adapted b move, disk⟩) h
      (Text.fits_finalBreak (Bool.and_eq_true_iff.1 hend).2)
    rw [Editor.amended_eq, Editor.adapted_adapted _ (by rfl)] at hset
    simp only [if_pos hend, hid]
    exact hset
  · simp only [if_neg hend]
    rfl

theorem Buffer.foldl_callsToRepair (saved : List Mark) :
    (b.callsToRepair saved).foldl callWorld ⟨base.adapted b move, disk⟩ =
      ⟨base.adapted (b.repaired saved) move, disk⟩ := by
  have h : (base.adapted b move).buffer? id = some b := Editor.buffer?_adapted hopen hid
  unfold Buffer.callsToRepair
  by_cases hlost : b.lost saved = []
  · rw [if_pos hlost, Buffer.repaired, hlost]
    rfl
  · have hset := Editor.callWorld_setMarks (w := ⟨base.adapted b move, disk⟩) h (b.lost saved)
    rw [Editor.putBuffer_eq, Editor.adapted_adapted _ (by rfl)] at hset
    rw [if_neg hlost, hid]
    exact hset

end

/-- The cursor of the focused window is put at a place that its buffer has, and is left alone where
the buffer has no such place. -/
theorem Text.foldl_callsToMove {w : World Editor} {id : BufferId} {b : Buffer}
    (hfocus : w.host.focusedBuffer? = some id) (h : w.host.buffer? id = some b) (p : BytePosition) :
    (b.text.callsToMove (some p)).foldl callWorld w =
      { w with host := w.host.withCursor b p } := by
  obtain ⟨win, hwin, rfl⟩ := Option.map_eq_some_iff.1 hfocus
  rw [Editor.withCursor, hwin]
  unfold Text.callsToMove
  by_cases hp : b.text.holds p = true
  · simp only [if_pos hp]
    exact Editor.callWorld_setCursor hwin h hp
  · simp only [if_neg hp]
    rfl

section

variable {w : World Editor} {id : BufferId} {b : Buffer} (h : w.host.buffer? id = some b)
  (config : Config) (e : Encoding) (edits : List TextEdit)
include h

theorem Editor.callWorld_setListed_adapted : callWorld w (.setListed id) =
    { w with host := w.host.adapted { b with listed := true } fun _ c => c } := by
  rw [Editor.callWorld_setListed h, Editor.putBuffer_eq]

theorem Buffer.foldl_edits : (b.text.callsToEdit e id (applicationOrder edits)).foldl callWorld
      { w with host := w.host.adapted { b with listed := true } fun _ c => c } =
    { w with
        host := w.host.adapted (b.afterEdits e edits)
          fun _ => b.text.kept e (applicationOrder edits) } := by
  have hid : b.id = id := Editor.id_of_buffer? h
  exact Text.foldl_callsToEdit (b := { b with listed := true }) h hid (fun _ c => c) w.disk e
    (applicationOrder edits)

theorem Buffer.foldl_trim :
    (if b.isTrimmed config then (b.afterEdits e edits).callsToTrim else []).foldl callWorld
      { w with
        host := w.host.adapted (b.afterEdits e edits)
          fun _ => b.text.kept e (applicationOrder edits) } =
    { w with
        host := w.host.adapted (b.afterTrim config e edits)
          fun _ => b.keptAfterBatch config e edits } := by
  have hid : (b.afterEdits e edits).id = id := by rw [Buffer.id_afterEdits, Editor.id_of_buffer? h]
  unfold Buffer.afterTrim Buffer.keptAfterBatch
  by_cases htrims : b.isTrimmed config = true
  · have htrims' : (config.trimFinalNewline && !b.text.endsInBreak) = true := htrims
    simp only [if_pos htrims, if_pos htrims']
    exact Buffer.foldl_callsToTrim h hid (fun _ => b.text.kept e (applicationOrder edits)) w.disk
  · have htrims' : ¬ (config.trimFinalNewline && !b.text.endsInBreak) = true := htrims
    simp only [if_neg htrims, if_neg htrims']
    rfl

theorem Buffer.foldl_repair :
    ((b.afterTrim config e edits).callsToRepair (b.saved config)).foldl callWorld
      { w with
        host := w.host.adapted (b.afterTrim config e edits)
          fun _ => b.keptAfterBatch config e edits } =
    { w with
        host := w.host.adapted (b.afterBatch config e edits)
          fun _ => b.keptAfterBatch config e edits } := by
  have hid : (b.afterTrim config e edits).id = id := by
    rw [Buffer.id_afterTrim, Editor.id_of_buffer? h]
  rw [Buffer.afterBatch_eq_repaired]
  exact Buffer.foldl_callsToRepair h hid (fun _ => b.keptAfterBatch config e edits) w.disk _

/-- What the calls of a batch leave, before and after the cursor of the focused window is put where
its text has moved. -/
theorem Buffer.foldl_callsOfBatch :
    let changed := w.host.adapted (b.afterBatch config e edits)
      fun _ => b.keptAfterBatch config e edits
    (b.callsOfBatch config e edits (w.host.tracked? config id)).foldl callWorld w = { w with
      host := match w.host.tracked? config id with
        | some p => changed.withCursor (b.afterBatch config e edits)
            (b.text.carried e (applicationOrder edits) p)
        | none => changed } := by
  intro changed
  have hid : b.id = id := Editor.id_of_buffer? h
  have hid' : (b.afterBatch config e edits).id = id := by rw [Buffer.id_afterBatch, hid]
  rw [Buffer.callsOfBatch, hid]
  simp only [List.foldl_cons, List.foldl_append]
  rw [Editor.callWorld_setListed_adapted h, Buffer.foldl_edits h e edits,
    Buffer.foldl_trim h config e edits, Buffer.foldl_repair h config e edits]
  cases hcursor : w.host.tracked? config id with
  | none => rfl
  | some p =>
    have hfocus : changed.focusedBuffer? = some id := by
      rw [(Editor.touches_adapted hid').focusedBuffer?, Editor.focusedBuffer?_of_tracked? hcursor]
    exact Text.foldl_callsToMove (w := { w with host := changed }) hfocus
      (Editor.buffer?_adapted h hid') _

end

/-! ## The steps of a batch -/

namespace Applier

section

variable {σ : Type} {a : Applier σ} (account : a.host.Account) {w : World Editor} {id : BufferId}
  {b : Buffer}

theorem endsWithEmptyLine_does (h : w.host.buffer? id = some b) :
    account.Does (a.endsWithEmptyLine id) [] b.text.endsInBreak w := by
  unfold endsWithEmptyLine
  refine account.look_bind (account.lineCount h) ?_
  by_cases hcount : b.text.lineCount < 2
  · have hend : b.text.endsInBreak = false := by
      rw [Bool.eq_false_iff, Ne, Text.endsInBreak_iff]
      exact fun h => h.1 hcount
    rw [if_pos hcount, hend]
    exact account.pure _
  · have hend : decide (b.text.line? (b.text.lineCount - 1) = some []) = b.text.endsInBreak := by
      rw [Bool.eq_iff_iff, decide_eq_true_iff, Text.endsInBreak_iff]
      simp [hcount]
    rw [if_neg hcount, ← hend]
    exact account.look_bind (account.line h _) (account.pure _)

theorem trimFinalEmptyLine_does (h : w.host.buffer? id = some b) :
    account.Does (a.trimFinalEmptyLine id) b.callsToTrim () w := by
  unfold trimFinalEmptyLine Buffer.callsToTrim
  refine account.look_bind (account.fixesEndOfLine h) ?_
  cases hfixes : b.fixesEndOfLine with
  | false => exact account.pure _
  | true =>
    refine account.look_bind (endsWithEmptyLine_does account h) ?_
    cases hend : b.text.endsInBreak with
    | false => exact account.pure _
    | true =>
      refine account.look_bind (account.lineCount h) ?_
      refine account.look_bind (lineLength_does account h _) ?_
      rw [Editor.id_of_buffer? h]
      exact account.setText h (Text.fits_finalBreak hend)

theorem applyInOrder_does (h : w.host.buffer? id = some b) (edits : List TextEdit)
    (cursor : Option BytePosition) :
    account.Does (a.applyInOrder id edits cursor) (b.text.callsToEdit a.encoding id edits)
      (cursor.map (b.text.carried a.encoding edits)) w := by
  induction edits generalizing w b cursor with
  | nil =>
    cases cursor with
    | none => exact account.pure _
    | some p => exact account.pure _
  | cons edit rest ih =>
    have hrest := ih
      (w := { w with host := w.host.amended b (edit.replacementIn a.encoding b.text) })
      (Editor.buffer?_amended h) (cursor.map (edit.carried a.encoding b.text))
    rw [Option.map_map] at hrest
    exact account.bind_of_eq (applyTextEdit_does account h edit cursor)
      (Editor.callWorld_setText h (edit.fits_replacementIn a.encoding b.text)) hrest

theorem letterMarks_does (h : w.host.buffer? id = some b) :
    account.Does (a.host.letterMarks id) [] (b.marks.filter (·.isLocalLetter)) w :=
  account.look_bind (account.marks h) (account.pure _)

theorem pullBack_does (h : w.host.buffer? id = some b) (ms : List Mark) :
    account.Does (a.host.pullBack id b.text.lineCount ms) []
      (ms.map fun m => m.clamped b.text.lineCount fun line =>
        ((b.text.line? line).map Text.byteLength).getD 0) w := by
  induction ms with
  | nil => exact account.pure _
  | cons m ms ih =>
    exact account.look_bind (account.line h _) (account.look_bind ih (account.pure _))

theorem repairMarks_does (h : w.host.buffer? id = some b) (saved : List Mark) :
    account.Does (a.host.repairMarks id saved) (b.callsToRepair saved) () w := by
  unfold Host.repairMarks Buffer.callsToRepair
  by_cases hsaved : saved = []
  · rw [if_pos hsaved, if_pos (by simp [Buffer.lost, hsaved])]
    exact account.pure _
  · rw [if_neg hsaved]
    refine account.look_bind (account.marks h) (account.look_bind (account.lineCount h) ?_)
    refine account.look_bind (pullBack_does account h _) ?_
    change account.Does
      (if b.lost saved = [] then pure () else a.host.setMarks id (b.lost saved)) _ _ _
    rw [Editor.id_of_buffer? h]
    split_ifs
    · exact account.pure _
    · exact account.setMarks h _

theorem holds_eq {t line : Text} {p : BytePosition} (h : t.line? p.line = some line) :
    t.holds p = decide (p.column ≤ line.byteLength) := by
  rw [Text.holds, Text.lineLength?, h]
  rfl

theorem restoreCursor_does (hfocus : w.host.focusedBuffer? = some id)
    (h : w.host.buffer? id = some b) (p : BytePosition) :
    account.Does (a.host.restoreCursor p) (b.text.callsToMove (some p)) () w := by
  obtain ⟨win, hwin, rfl⟩ := Option.map_eq_some_iff.1 hfocus
  have hsee := account.focusedBuffer w
  rw [hfocus] at hsee
  unfold Host.restoreCursor Text.callsToMove
  refine account.look_bind hsee (account.look_bind (account.line h p.line) ?_)
  cases hline : b.text.line? p.line with
  | none =>
    have hp : b.text.holds p = false := by rw [Text.holds, Text.lineLength?, hline]; rfl
    simp only [hp]
    exact account.pure _
  | some line =>
    simp only [holds_eq hline, decide_eq_true_eq]
    split_ifs with hcolumn
    · exact account.setCursor hwin h (by rw [holds_eq hline, decide_eq_true hcolumn])
    · exact account.pure _

theorem trackedCursor_does :
    account.Does (a.trackedCursor id) [] (w.host.tracked? a.config id) w := by
  unfold trackedCursor Editor.tracked?
  cases hrestore : a.config.restoreCursor with
  | false => exact account.pure _
  | true =>
    refine account.look_bind (account.focusedBuffer w) ?_
    by_cases hfocus : w.host.focusedBuffer? = some id
    · simp only [hfocus, and_self, if_true]
      exact account.cursor w
    · simp only [hfocus, and_false, if_false]
      exact account.pure _

/-- The letter marks are saved if the configuration asks for it. -/
theorem savedMarks_does (h : w.host.buffer? id = some b) :
    account.Does (if a.config.restoreMarks then a.host.letterMarks id else pure []) []
      (b.saved a.config) w := by
  unfold Buffer.saved
  cases a.config.restoreMarks with
  | false => exact account.pure _
  | true => exact letterMarks_does account h

/-- The final empty line is removed if the configuration asks for it, and there was none before. -/
theorem trimUnless_does (h : w.host.buffer? id = some b) (hadEmptyLine : Bool) :
    account.Does
      (if a.config.trimFinalNewline && !hadEmptyLine then a.trimFinalEmptyLine id else pure ())
      (if a.config.trimFinalNewline && !hadEmptyLine then b.callsToTrim else []) () w := by
  split_ifs
  · exact trimFinalEmptyLine_does account h
  · exact account.pure _

/-! ## The whole batch -/

/-- A batch on an open buffer makes its calls, and no others that change something. -/
theorem applyTextEdits_does (h : w.host.buffer? id = some b) {edits : List TextEdit}
    (hedits : edits ≠ []) :
    account.Does (a.applyTextEdits id edits)
      (b.callsOfBatch a.config a.encoding edits (w.host.tracked? a.config id)) () w := by
  have hid : b.id = id := Editor.id_of_buffer? h
  -- the buffer in each of its states
  have hlisted : (w.host.adapted { b with listed := true } fun _ c => c).buffer? id =
      some { b with listed := true } := Editor.buffer?_adapted h hid
  have hedited : (w.host.adapted (b.afterEdits a.encoding edits)
      fun _ => b.text.kept a.encoding (applicationOrder edits)).buffer? id =
      some (b.afterEdits a.encoding edits) :=
    Editor.buffer?_adapted h ((Buffer.id_afterEdits ..).trans hid)
  have htrimmed : (w.host.adapted (b.afterTrim a.config a.encoding edits)
      fun _ => b.keptAfterBatch a.config a.encoding edits).buffer? id =
      some (b.afterTrim a.config a.encoding edits) :=
    Editor.buffer?_adapted h ((Buffer.id_afterTrim ..).trans hid)
  have htracked : (w.host.adapted { b with listed := true } fun _ c => c).tracked? a.config id =
      w.host.tracked? a.config id := by
    rw [← Editor.putBuffer_eq]
    rfl
  unfold applyTextEdits Buffer.callsOfBatch
  rw [if_neg hedits, hid]
  refine account.bind_of_eq (account.setListed h) (Editor.callWorld_setListed_adapted h) ?_
  refine account.look_bind (trackedCursor_does account) ?_
  refine account.ite_look_bind (savedMarks_does account hlisted) ?_
  refine account.look_bind (endsWithEmptyLine_does account hlisted) ?_
  refine account.bind_of_eq
    (applyInOrder_does account (b := { b with listed := true }) hlisted (applicationOrder edits) _)
    (Buffer.foldl_edits h a.encoding edits) ?_
  refine account.ite_bind (trimUnless_does account hedited b.text.endsInBreak)
    (Buffer.foldl_trim h a.config a.encoding edits) ?_
  refine account.bind_of_eq (repairMarks_does account htrimmed (b.saved a.config))
    (Buffer.foldl_repair h a.config a.encoding edits) ?_
  -- the cursor
  dsimp only
  rw [htracked]
  cases hcursor : w.host.tracked? a.config id with
  | none => exact account.pure _
  | some p =>
    have hid' : (b.afterBatch a.config a.encoding edits).id = id :=
      (Buffer.id_afterBatch ..).trans hid
    refine restoreCursor_does account ?_ (Editor.buffer?_adapted h hid') _
    show Editor.focusedBuffer? (w.host.adapted _ _) = _
    rw [(Editor.touches_adapted hid').focusedBuffer?, Editor.focusedBuffer?_of_tracked? hcursor]

end

/-! ## The batch in the editor -/

variable {w : World Editor} {id : BufferId} {b : Buffer} (config : Config) (e : Encoding)

theorem endsWithEmptyLine_ok (h : w.host.buffer? id = some b) :
    endsWithEmptyLine ⟨Editor.asHost, config, e⟩ id w = .ok b.text.endsInBreak w :=
  endsWithEmptyLine_does (a := ⟨Editor.asHost, config, e⟩) Editor.account h

/-- What a batch applied to an open buffer leaves of the editor, before and after the cursor of the
focused window is put where its text has moved. -/
theorem applyTextEdits_eq (h : w.host.buffer? id = some b) {edits : List TextEdit}
    (hedits : edits ≠ []) :
    let changed := w.host.adapted (b.afterBatch config e edits)
      fun _ => b.keptAfterBatch config e edits
    applyTextEdits ⟨Editor.asHost, config, e⟩ id edits w = .ok () { w with
      host := match w.host.tracked? config id with
        | some p => changed.withCursor (b.afterBatch config e edits)
            (b.text.carried e (applicationOrder edits) p)
        | none => changed } := by
  have hdoes := applyTextEdits_does (a := ⟨Editor.asHost, config, e⟩) Editor.account h hedits
  refine hdoes.trans ?_
  rw [Buffer.foldl_callsOfBatch h config e edits]

/-- A batch applied to an open buffer succeeds, and what it leaves of the buffer is settled by the
buffer, the batch and the configuration. Nothing but the buffer and the cursors in it is touched,
before the cursor of the focused window is put where its text has moved. -/
theorem applyTextEdits_ok (h : w.host.buffer? id = some b) {edits : List TextEdit}
    (hedits : edits ≠ []) :
    ∃ host, w.host.Touches id host ∧ host.buffer? id = some (b.afterBatch config e edits) ∧
      applyTextEdits ⟨Editor.asHost, config, e⟩ id edits w = .ok () { w with
        host := match w.host.tracked? config id with
          | some p =>
            host.withCursor (b.afterBatch config e edits)
              (b.text.carried e (applicationOrder edits) p)
          | none => host } := by
  have hid : (b.afterBatch config e edits).id = id :=
    (Buffer.id_afterBatch config e b edits).trans (Editor.id_of_buffer? h)
  exact ⟨_, Editor.touches_adapted hid, Editor.buffer?_adapted h hid,
    applyTextEdits_eq config e h hedits⟩

/-- What a batch leaves of its buffer. -/
theorem buffer?_applyTextEdits (h : w.host.buffer? id = some b) {edits : List TextEdit}
    (hedits : edits ≠ []) :
    ∃ w', applyTextEdits ⟨Editor.asHost, config, e⟩ id edits w = .ok () w' ∧
      w'.host.buffer? id = some (b.afterBatch config e edits) := by
  obtain ⟨host, -, hafter, hrun⟩ := applyTextEdits_ok config e h hedits
  refine ⟨_, hrun, ?_⟩
  cases w.host.tracked? config id with
  | none => exact hafter
  | some p => rw [Editor.buffer?_withCursor, hafter]

/-- What it leaves of the text. -/
theorem text?_applyTextEdits (h : w.host.buffer? id = some b) {edits : List TextEdit}
    (hedits : edits ≠ []) :
    ∃ w', applyTextEdits ⟨Editor.asHost, config, e⟩ id edits w = .ok () w' ∧
      w'.host.text? id = some (b.text.trimmed config b.fixesEndOfLine
        (b.text.edited e (applicationOrder edits))) := by
  obtain ⟨w', hrun, hbuffer⟩ := buffer?_applyTextEdits config e h hedits
  refine ⟨w', hrun, ?_⟩
  rw [Editor.text?, hbuffer, Option.map_some, Buffer.text_afterBatch]

end Applier

end WorkspaceEditing
