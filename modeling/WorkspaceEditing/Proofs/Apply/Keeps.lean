import WorkspaceEditing.Apply.CodeAction
import WorkspaceEditing.Proofs.Host.Action

/-!
# What the calls of a host keep, edits keep

Applying an edit reaches the host through its calls only, and the file tree through a few actions.
A relation between worlds that can be chained, and that holds across each call and each change of
the file tree, therefore holds across whatever is applied, also where it fails on the way.

## Main definitions

* `Host.KeepsInMemory`, `Host.Keeps` — a relation that holds across the calls of a host that have
  nothing to do with files, and across all calls.
* `Applier.relocate` — a renaming once nothing is in the way.

## Main results

* `Applier.keeps_applyTextEdits`, `Applier.keeps_applyChange`, `Applier.applyWorkspaceEdit_keeps`,
  `Applier.runAction_keeps` — it holds across batches, changes, workspace edits and code actions.
-/

namespace WorkspaceEditing

open Protocol

/-! ## Calls of a host -/

section

variable {σ α : Type} {R : World σ → World σ → Prop}

/-- A relation that holds across the calls of a host that neither read nor write files. -/
structure Host.KeepsInMemory (R : World σ → World σ → Prop) (host : Host σ) : Prop where
  buffers : WorkspaceEditing.Keeps R host.buffers
  setListed : ∀ buffer, WorkspaceEditing.Keeps R (host.setListed buffer)
  line : ∀ buffer index, WorkspaceEditing.Keeps R (host.line buffer index)
  lineCount : ∀ buffer, WorkspaceEditing.Keeps R (host.lineCount buffer)
  setText : ∀ buffer range newLines, WorkspaceEditing.Keeps R (host.setText buffer range newLines)
  focusedBuffer : WorkspaceEditing.Keeps R host.focusedBuffer
  cursor : WorkspaceEditing.Keeps R host.cursor
  setCursor : ∀ p, WorkspaceEditing.Keeps R (host.setCursor p)
  marks : ∀ buffer, WorkspaceEditing.Keeps R (host.marks buffer)
  setMarks : ∀ buffer marks, WorkspaceEditing.Keeps R (host.setMarks buffer marks)
  deleteBuffer : ∀ buffer, WorkspaceEditing.Keeps R (host.deleteBuffer buffer)
  windowsShowing : ∀ buffer, WorkspaceEditing.Keeps R (host.windowsShowing buffer)
  setWindowBuffer : ∀ window buffer, WorkspaceEditing.Keeps R (host.setWindowBuffer window buffer)
  fixesEndOfLine : ∀ buffer, WorkspaceEditing.Keeps R (host.fixesEndOfLine buffer)

/-- A relation that holds across every call of a host. -/
structure Host.Keeps (R : World σ → World σ → Prop) (host : Host σ) : Prop
    extends Host.KeepsInMemory R host where
  loadBuffer : ∀ path, WorkspaceEditing.Keeps R (host.loadBuffer path)
  writeBuffer : ∀ buffer, WorkspaceEditing.Keeps R (host.writeBuffer buffer)

/-- What is weaker than a relation that is kept is kept as well. -/
theorem Host.KeepsInMemory.mono {R' : World σ → World σ → Prop} {host : Host σ}
    (h : host.KeepsInMemory R) (himp : ∀ w w', R w w' → R' w w') : host.KeepsInMemory R' where
  buffers w := himp _ _ (h.buffers w)
  setListed id w := himp _ _ (h.setListed id w)
  line id index w := himp _ _ (h.line id index w)
  lineCount id w := himp _ _ (h.lineCount id w)
  setText id r newLines w := himp _ _ (h.setText id r newLines w)
  focusedBuffer w := himp _ _ (h.focusedBuffer w)
  cursor w := himp _ _ (h.cursor w)
  setCursor p w := himp _ _ (h.setCursor p w)
  marks id w := himp _ _ (h.marks id w)
  setMarks id ms w := himp _ _ (h.setMarks id ms w)
  deleteBuffer id w := himp _ _ (h.deleteBuffer id w)
  windowsShowing id w := himp _ _ (h.windowsShowing id w)
  setWindowBuffer win id w := himp _ _ (h.setWindowBuffer win id w)
  fixesEndOfLine id w := himp _ _ (h.fixesEndOfLine id w)

variable [IsPreorder (World σ) R] {a : Applier σ} (h : a.host.KeepsInMemory R)
include h

/-! ## Text edits -/

namespace Applier

theorem keeps_lineLength (buffer : BufferId) (index : Nat) : Keeps R (a.lineLength buffer index) :=
  (h.line buffer index).bind fun _ => .pure _

theorem keeps_endsWithEmptyLine (buffer : BufferId) : Keeps R (a.endsWithEmptyLine buffer) :=
  (h.lineCount buffer).bind fun _ => .ite (.pure _) ((h.line buffer _).bind fun _ => .pure _)

theorem keeps_trimFinalEmptyLine (buffer : BufferId) : Keeps R (a.trimFinalEmptyLine buffer) := by
  refine (h.fixesEndOfLine buffer).bind fun fixes => .ite (.pure _) ?_
  refine (keeps_endsWithEmptyLine h buffer).bind fun empty => .ite (.pure _) ?_
  apply (h.lineCount buffer).bind
  intro lineCount
  exact (keeps_lineLength h buffer _).bind fun length => h.setText buffer _ _

theorem keeps_append (buffer : BufferId) (lineCount : Nat) (newLines : List Text) :
    Keeps R (a.append buffer lineCount newLines) :=
  (keeps_lineLength h buffer _).bind fun _ => h.setText buffer _ _

theorem keeps_applyTextEdit (buffer : BufferId) (edit : TextEdit) (cursor : Option BytePosition) :
    Keeps R (a.applyTextEdit buffer edit cursor) := by
  refine (h.lineCount buffer).bind fun lineCount => .ite ?_ ?_
  · exact (keeps_append h buffer lineCount _).bind fun _ => .pure _
  · apply (h.line buffer _).bind
    intro startText
    have hset (r : ByteRange) (newLines : List Text) : Keeps R (do
        a.host.setText buffer r newLines
        return cursor.map (·.shifted r newLines)) :=
      (h.setText buffer r newLines).bind fun _ => .pure _
    -- the last line is the first one, or is read
    refine .ite ?_ ((h.line buffer _).bind fun stopText => ?_)
    · exact .ite ((keeps_lineLength h buffer _).bind fun _ => hset _ _) (hset _ _)
    · exact .ite ((keeps_lineLength h buffer _).bind fun _ => hset _ _) (hset _ _)

theorem keeps_applyInOrder (buffer : BufferId) (edits : List TextEdit)
    (cursor : Option BytePosition) : Keeps R (a.applyInOrder buffer edits cursor) := by
  induction edits generalizing cursor with
  | nil => exact .pure _
  | cons edit rest ih => exact (keeps_applyTextEdit h buffer edit cursor).bind ih

theorem keeps_trackedCursor (buffer : BufferId) : Keeps R (a.trackedCursor buffer) :=
  .ite (.pure _) (h.focusedBuffer.bind fun _ => .ite h.cursor (.pure _))

theorem keeps_letterMarks (buffer : BufferId) : Keeps R (a.host.letterMarks buffer) :=
  (h.marks buffer).bind fun _ => .pure _

theorem keeps_pullBack (buffer : BufferId) (lineCount : Nat) (ms : List Mark) :
    Keeps R (a.host.pullBack buffer lineCount ms) := by
  induction ms with
  | nil => exact .pure _
  | cons m rest ih => exact (h.line buffer _).bind fun _ => ih.bind fun _ => .pure _

theorem keeps_repairMarks (buffer : BufferId) (saved : List Mark) :
    Keeps R (a.host.repairMarks buffer saved) := by
  refine .ite (.pure _) ?_
  apply (h.marks buffer).bind
  intro remaining
  apply (h.lineCount buffer).bind
  intro lineCount
  exact (keeps_pullBack h buffer lineCount _).bind fun repaired =>
    .ite (.pure _) (h.setMarks buffer repaired)

theorem keeps_restoreCursor (p : BytePosition) : Keeps R (a.host.restoreCursor p) := by
  apply h.focusedBuffer.bind
  intro focused
  cases focused with
  | none => exact .pure _
  | some buffer =>
    apply (h.line buffer p.line).bind
    intro line
    cases line with
    | none => exact .pure _
    | some line => exact .ite (h.setCursor p) (.pure _)

theorem keeps_applyTextEdits (buffer : BufferId) (edits : List TextEdit) :
    Keeps R (a.applyTextEdits buffer edits) := by
  refine .ite (.pure _) ?_
  apply (h.setListed buffer).bind
  intro _
  apply (keeps_trackedCursor h buffer).bind
  intro cursor
  -- after the marks are saved, whatever is done with the cursor in the end
  have hedits (saved : List Mark) (restore : Option BytePosition → HostAction σ Unit)
      (hrestore : ∀ cursor, Keeps R (restore cursor)) : Keeps R (do
      let hadEmptyLine ← a.endsWithEmptyLine buffer
      let cursor ← a.applyInOrder buffer (applicationOrder edits) cursor
      if a.config.trimFinalNewline && !hadEmptyLine then a.trimFinalEmptyLine buffer
      a.host.repairMarks buffer saved
      restore cursor) := by
    apply (keeps_endsWithEmptyLine h buffer).bind
    intro hadEmptyLine
    apply (keeps_applyInOrder h buffer _ cursor).bind
    intro cursor
    have hrepair := (keeps_repairMarks h buffer saved).bind fun _ => hrestore cursor
    exact .ite ((keeps_trimFinalEmptyLine h buffer).bind fun _ => hrepair) hrepair
  refine .ite ((keeps_letterMarks h buffer).bind fun saved => hedits saved _ ?_)
    (hedits [] _ ?_)
  all_goals
    rintro (_ | p)
    · exact .pure _
    · exact keeps_restoreCursor h p

end Applier

end

/-! ## Changes -/

section

variable {σ α : Type} {R : World σ → World σ → Prop}

theorem ApplyAction.keeps_onHost {call : HostAction σ α} (h : Keeps R call) :
    Keeps R (ApplyAction.onHost call) := by
  intro w
  have hw := h w
  unfold ApplyAction.onHost
  cases hrun : call w with
  | ok value w' =>
    rw [hrun] at hw
    exact hw
  | error cause w' =>
    rw [hrun] at hw
    exact hw

theorem ApplyAction.keeps_onDisk (hdisk : ∀ w disk, R w { w with disk })
    (failure : DiskError → ApplyError) (action : DiskAction α) :
    Keeps R (ApplyAction.onDisk failure action : ApplyAction σ α) := by
  intro w
  unfold ApplyAction.onDisk
  cases action w.disk with
  | ok value disk => exact hdisk w disk
  | error cause disk => exact hdisk w disk

variable [IsPreorder (World σ) R]

theorem ApplyAction.keeps_lookAtDisk (read : Disk → α) :
    Keeps R (ApplyAction.lookAtDisk read : ApplyAction σ α) := fun w => refl_of R w

namespace Applier

/-- A renaming once nothing is in the way at the new path. -/
def relocate (a : Applier σ) (change : RenameFile) (oldPath newPath : Path) :
    ApplyAction σ ChangeStatus := do
  let affected ← a.buffersUnder oldPath
  .onHost (a.writeBuffers affected)
  .onDisk (.renameFailed change.oldUri change.newUri false) do
    createParents newPath
    DiskAction.rename oldPath newPath
  .onHost (a.moveBuffers oldPath newPath affected)
  return .applied

theorem keeps_pathOf (uri : Uri) : Keeps R (pathOf uri : ApplyAction σ Path) := by
  unfold pathOf
  cases uri.toPath? with
  | some path => exact .pure path
  | none => exact .throw _

variable {a : Applier σ} (h : a.host.Keeps R) (hdisk : ∀ w disk, R w { w with disk })
include h

theorem keeps_buffersUnder (root : Path) : Keeps R (a.buffersUnder root) :=
  (ApplyAction.keeps_onHost h.buffers).bind fun _ => .pure _

theorem keeps_writeBuffers (buffers : List (BufferId × Path)) :
    Keeps R (a.writeBuffers buffers) := by
  induction buffers with
  | nil => exact .pure _
  | cons buffer rest ih => exact (h.writeBuffer buffer.1).bind fun _ => ih

omit h in
theorem keeps_showIn (h : a.host.KeepsInMemory R) (buffer : BufferId) (windows : List WindowId) :
    Keeps R (a.showIn buffer windows) := by
  induction windows with
  | nil => exact .pure _
  | cons window rest ih => exact (h.setWindowBuffer window buffer).bind fun _ => ih

omit h in
/-- Moving buffers reads files, but writes none. -/
theorem keeps_moveBuffers (h : a.host.KeepsInMemory R)
    (hload : ∀ path, Keeps R (a.host.loadBuffer path)) (oldPath newPath : Path)
    (buffers : List (BufferId × Path)) : Keeps R (a.moveBuffers oldPath newPath buffers) := by
  induction buffers with
  | nil => exact .pure _
  | cons buffer rest ih =>
    unfold moveBuffers
    cases buffer.2.stripPrefix? oldPath with
    | none => exact ih
    | some suffix =>
      apply (hload _).bind
      intro moved
      apply (h.windowsShowing _).bind
      intro windows
      exact (keeps_showIn h moved windows).bind fun _ =>
        (h.deleteBuffer _).bind fun _ => ih

theorem keeps_deleteBuffers (buffers : List (BufferId × Path)) :
    Keeps R (a.deleteBuffers buffers) := by
  induction buffers with
  | nil => exact .pure _
  | cons buffer rest ih => exact (h.deleteBuffer buffer.1).bind fun _ => ih

theorem keeps_applyDocumentEdit (change : DocumentEdit) : Keeps R (a.applyDocumentEdit change) := by
  refine .ite (.pure _) ?_
  refine (keeps_pathOf _).bind fun path => ?_
  apply (ApplyAction.keeps_onHost (h.loadBuffer path)).bind
  intro buffer
  have hedits := keeps_applyTextEdits (a := a) h.toKeepsInMemory buffer change.edits
  exact (ApplyAction.keeps_onHost hedits).bind fun _ => .pure _

include hdisk

theorem keeps_createFile (change : CreateFile) : Keeps R (a.createFile change) := by
  refine (keeps_pathOf _).bind fun path => ?_
  refine (ApplyAction.keeps_lookAtDisk _).bind fun present => ?_
  have hload := ApplyAction.keeps_onHost (h.loadBuffer path)
  refine .ite (hload.bind fun _ => .pure _) ?_
  exact (ApplyAction.keeps_onDisk hdisk _ _).bind fun _ => hload.bind fun _ => .pure _

theorem keeps_relocate (change : RenameFile) (oldPath newPath : Path) :
    Keeps R (a.relocate change oldPath newPath) := by
  apply (keeps_buffersUnder h oldPath).bind
  intro affected
  apply (ApplyAction.keeps_onHost (keeps_writeBuffers h affected)).bind
  intro _
  apply (ApplyAction.keeps_onDisk hdisk _ _).bind
  intro _
  have hmoved := keeps_moveBuffers h.toKeepsInMemory h.loadBuffer oldPath newPath affected
  exact (ApplyAction.keeps_onHost hmoved).bind fun _ => .pure _

theorem keeps_renameFile (change : RenameFile) : Keeps R (a.renameFile change) := by
  refine (keeps_pathOf _).bind fun oldPath => ?_
  refine (keeps_pathOf _).bind fun newPath => ?_
  refine (ApplyAction.keeps_lookAtDisk _).bind fun present => ?_
  have hrelocate := keeps_relocate h hdisk change oldPath newPath
  refine .ite (.ite (.pure _) ?_) hrelocate
  exact (ApplyAction.keeps_onDisk hdisk _ _).bind fun _ => hrelocate

theorem keeps_deleteFile (change : DeleteFile) : Keeps R (a.deleteFile change) := by
  refine (keeps_pathOf _).bind fun path => ?_
  refine (ApplyAction.keeps_lookAtDisk _).bind fun present => ?_
  refine .ite (.ite (.pure _) (.throw _)) ?_
  apply (ApplyAction.keeps_onDisk hdisk _ _).bind
  intro _
  apply (keeps_buffersUnder h path).bind
  intro affected
  exact (ApplyAction.keeps_onHost (keeps_deleteBuffers h affected)).bind fun _ => .pure _

/-- What the calls of the host keep, a change keeps. -/
theorem keeps_applyChange (change : DocumentChange) : Keeps R (a.applyChange change) := by
  cases change with
  | edit change => exact keeps_applyDocumentEdit h change
  | create change => exact keeps_createFile h hdisk change
  | rename change => exact keeps_renameFile h hdisk change
  | delete change => exact keeps_deleteFile h hdisk change

theorem applyChanges_keeps (changes : List DocumentChange) (index : Nat) (w : World σ) :
    R w (a.applyChanges index changes w).2 := by
  induction changes generalizing index w with
  | nil => exact refl_of R w
  | cons change rest ih =>
    have hchange : R w ((a.applyChange change).result w).2 := by
      have hw := keeps_applyChange h hdisk change w
      unfold ApplyAction.result
      cases hrun : a.applyChange change w with
      | ok value w' =>
        rw [hrun] at hw
        exact hw
      | error cause w' =>
        rw [hrun] at hw
        exact hw
    exact trans_of R hchange (ih _ _)

/-- What the calls of the host keep, a workspace edit keeps. -/
theorem applyWorkspaceEdit_keeps (edit : WorkspaceEdit) (w : World σ) :
    R w (a.applyWorkspaceEdit edit w).2 := applyChanges_keeps h hdisk _ 0 w

/-- What the calls of the host keep, a code action keeps. -/
theorem runAction_keeps (server : Server) (action : Action) (w : World σ) :
    R w (a.runAction server action w).2 := by
  cases action with
  | command command => exact refl_of R w
  | codeAction action =>
    simp only [runAction]
    cases action.disabled with
    | some reason => exact refl_of R w
    | none =>
      cases action.edit with
      | none => exact refl_of R w
      | some edit => exact applyWorkspaceEdit_keeps h hdisk edit w

end Applier

end

end WorkspaceEditing
