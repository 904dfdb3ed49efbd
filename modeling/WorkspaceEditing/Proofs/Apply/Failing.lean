import WorkspaceEditing.Proofs.Apply.Fate
import WorkspaceEditing.Proofs.Session.Creation
import WorkspaceEditing.Proofs.Session.Deletion

/-!
# File operations that fail

The file tree is changed first and the editor last, so an operation that fails may have changed the
tree, but not the editor: a creation fails at the latest when the new buffer is loaded, and then opens
none; a deletion fails before it gives any buffer up; and a renaming leaves the editor alone until the
tree has been changed. Only when buffers are moved along afterwards may it fail half-way.

## Main definitions

* `World.SameHost` — the host is the same in two worlds.
* `ApplyAction.SparesHost` — where an action fails, the host is as it was.
* `Applier.renameOnDisk` — a renaming up to the change of the file tree.

## Main results

* `Applier.renameFile_eq_bind` — a renaming is that part, and then moves the buffers.
* `Applier.fileOperations_spare_host` — what an operation that fails or is skipped does to the editor.
-/

namespace WorkspaceEditing

open Protocol

/-! ## The host stays as it is -/

section

variable {σ α β : Type} {w : World σ}

/-- The host is the same in both worlds. -/
def World.SameHost (w w' : World σ) : Prop := w'.host = w.host

instance : IsPreorder (World σ) World.SameHost where
  refl _ := rfl
  trans _ _ _ h h' := Eq.trans h' h

namespace ApplyAction

/-- Where an action fails, the host is as it was. -/
def SparesHost (action : ApplyAction σ α) (w : World σ) : Prop :=
  ∀ cause w', action w = .error cause w' → w'.host = w.host

namespace SparesHost

theorem of_keeps {action : ApplyAction σ α} (h : Keeps World.SameHost action) (w : World σ) :
    SparesHost action w := by
  intro cause w' hrun
  have hw : w.SameHost (left (action w)) := h w
  rwa [hrun] at hw

theorem of_ok {action : ApplyAction σ α} {value : α} {w' : World σ}
    (h : action w = .ok value w') : SparesHost action w := by
  intro cause w'' hrun
  cases h.symm.trans hrun

/-- What leaves the host as it is may come before an action that spares it. -/
theorem bind {action : ApplyAction σ α} {next : α → ApplyAction σ β}
    (h : Keeps World.SameHost action)
    (hnext : ∀ value w', w'.host = w.host → SparesHost (next value) w') :
    SparesHost (action >>= next) w := by
  intro cause w' hrun
  have hw : w.SameHost (left (action w)) := h w
  cases hfirst : action w with
  | ok value between =>
    rw [hfirst] at hw
    rw [bind_of_ok hfirst] at hrun
    exact (hnext value between hw cause w' hrun).trans hw
  | error failure between =>
    rw [hfirst] at hw
    rw [bind_of_error hfirst] at hrun
    cases hrun
    exact hw

/-- What never fails may come after it. -/
theorem bind_pure {action : ApplyAction σ α} (h : SparesHost action w) (value : α → β) :
    SparesHost (action >>= fun found => pure (value found)) w := by
  intro cause w' hrun
  cases hfirst : action w with
  | ok found between =>
    rw [bind_of_ok hfirst] at hrun
    cases hrun
  | error failure between =>
    rw [bind_of_error hfirst] at hrun
    cases hrun
    exact h _ _ hfirst

theorem ite {c : Prop} [Decidable c] {action other : ApplyAction σ α} (h : SparesHost action w)
    (hother : SparesHost other w) : SparesHost (if c then action else other) w := by
  split
  · exact h
  · exact hother

end SparesHost

theorem sameHost_onDisk (failure : DiskError → ApplyError) (action : DiskAction α) :
    Keeps World.SameHost (onDisk failure action : ApplyAction σ α) :=
  keeps_onDisk (fun _ _ => rfl) failure action

end ApplyAction

end

namespace Applier

open ApplyAction (SparesHost sameHost_onDisk)

variable {config : Config} {encoding : Encoding} {w w' : World Editor}

theorem sparesHost_loadBuffer (path : Path) (w : World Editor) :
    SparesHost (.onHost (Editor.asHost.loadBuffer path)) w := by
  intro cause w' hrun
  obtain ⟨failure, hload, -⟩ := ApplyAction.error_of_onHost hrun
  rw [Editor.error_of_loadBuffer hload]

/-- Writing buffers changes the file tree only. -/
theorem sameHost_writeBuffers (bs : List (BufferId × Path)) :
    Keeps World.SameHost (writeBuffers ⟨Editor.asHost, config, encoding⟩ bs) := by
  induction bs with
  | nil => exact .pure _
  | cons first rest ih =>
    exact .bind (Session.host_writeBuffer first.1) fun _ => ih

theorem sameHost_buffersUnder (root : Path) :
    Keeps World.SameHost (buffersUnder ⟨Editor.asHost, config, encoding⟩ root) := by
  intro w
  rw [buffersUnder_ok]
  rfl

/-! ## Renaming -/

/-- What a renaming has left to do once the file tree is changed: the buffers that were open at the
old path or beneath it are to be moved. -/
structure Relocation where
  oldPath : Path
  newPath : Path
  affected : List (BufferId × Path)

/-- A renaming up to the change of the file tree, with what is left to do, or nothing if the renaming
is skipped. -/
def renameOnDisk (a : Applier Editor) (change : RenameFile) :
    ApplyAction Editor (Option Relocation) := do
  let oldPath ← pathOf change.oldUri
  let newPath ← pathOf change.newUri
  if ← .lookAtDisk (·.isPresent newPath) then
    if !change.overwrite || change.ignoreIfExists then return none
    .onDisk (.renameFailed change.oldUri change.newUri true) (DiskAction.remove newPath true)
  let affected ← a.relocateFiles change oldPath newPath
  return some ⟨oldPath, newPath, affected⟩

theorem renameFile_eq_bind (a : Applier Editor) (change : RenameFile) :
    a.renameFile change = (do
      match ← a.renameOnDisk change with
      | none => return .skipped .targetExists
      | some left =>
        .onHost (a.moveBuffers left.oldPath left.newPath left.affected)
        return .applied) := by
  unfold renameFile renameOnDisk
  simp only [relocateFiles, bind_assoc, pure_bind]
  congr 1
  funext oldPath
  congr 1
  funext newPath
  congr 1
  funext present
  split_ifs <;> simp only [bind_assoc, pure_bind]

theorem sameHost_renameOnDisk (change : RenameFile) :
    Keeps World.SameHost (renameOnDisk ⟨Editor.asHost, config, encoding⟩ change) := by
  refine (keeps_pathOf _).bind fun oldPath => (keeps_pathOf _).bind fun newPath => ?_
  refine (ApplyAction.keeps_lookAtDisk _).bind fun present => ?_
  have hrelocate : Keeps World.SameHost
      (relocateFiles ⟨Editor.asHost, config, encoding⟩ change oldPath newPath) :=
    (sameHost_buffersUnder oldPath).bind fun affected =>
      (ApplyAction.keeps_onHost (sameHost_writeBuffers affected)).bind fun _ =>
        (sameHost_onDisk _ _).bind fun _ => .pure _
  refine .ite (.ite (.pure _) ?_) (hrelocate.bind fun _ => .pure _)
  exact (sameHost_onDisk _ _).bind fun _ => hrelocate.bind fun _ => .pure _

/-- A renaming that is skipped has only looked at the file tree. -/
theorem eq_of_renameOnDisk {change : RenameFile}
    (h : renameOnDisk ⟨Editor.asHost, config, encoding⟩ change w = .ok none w') : w' = w := by
  obtain ⟨oldPath, w₁, hold, h⟩ := exists_of_bind_ok h
  obtain ⟨newPath, w₂, hnew, h⟩ := exists_of_bind_ok h
  obtain ⟨present, w₃, hlook, h⟩ := exists_of_bind_ok h
  obtain ⟨-, rfl⟩ := toPath?_of_pathOf hold
  obtain ⟨-, rfl⟩ := toPath?_of_pathOf hnew
  cases hlook
  split_ifs at h
  · cases h
    rfl
  · obtain ⟨_, _, -, h⟩ := exists_of_bind_ok h
    obtain ⟨_, _, -, hpure⟩ := exists_of_bind_ok h
    cases hpure
  · obtain ⟨_, _, -, hpure⟩ := exists_of_bind_ok h
    cases hpure

/-- If there is something left to do, then the renaming on the file tree has succeeded. -/
theorem exists_of_renameOnDisk {change : RenameFile} {moves : Relocation}
    (h : renameOnDisk ⟨Editor.asHost, config, encoding⟩ change w = .ok (some moves) w') :
    ∃ made, DiskAction.rename moves.oldPath moves.newPath made = .ok () w'.disk := by
  have hrelocate {w w' : World Editor} {oldPath newPath : Path} (h : (do
      let affected ← relocateFiles ⟨Editor.asHost, config, encoding⟩ change oldPath newPath
      return some (Relocation.mk oldPath newPath affected) : ApplyAction Editor _) w =
        .ok (some moves) w') :
      ∃ made, DiskAction.rename moves.oldPath moves.newPath made = .ok () w'.disk := by
    obtain ⟨affected, between, hfiles, hpure⟩ := exists_of_bind_ok h
    cases hpure
    obtain ⟨_, _, -, hfiles⟩ := exists_of_bind_ok hfiles
    obtain ⟨_, _, -, hfiles⟩ := exists_of_bind_ok hfiles
    obtain ⟨_, _, hdisk, hpure⟩ := exists_of_bind_ok hfiles
    cases hpure
    obtain ⟨renamed, hrenamed, rfl⟩ := ApplyAction.ok_of_onDisk hdisk
    obtain ⟨_, made, -, hrename⟩ := exists_of_bind_ok hrenamed
    exact ⟨made, hrename⟩
  obtain ⟨oldPath, _, -, h⟩ := exists_of_bind_ok h
  obtain ⟨newPath, _, -, h⟩ := exists_of_bind_ok h
  obtain ⟨present, _, -, h⟩ := exists_of_bind_ok h
  split_ifs at h
  · cases h
  · obtain ⟨_, _, -, h⟩ := exists_of_bind_ok h
    exact hrelocate h
  · exact hrelocate h

/-- A renaming that fails has left the editor alone, or it fails to move the buffers along after the
file tree has been changed. -/
theorem cases_of_renameFile_error {change : RenameFile} {cause : ApplyError}
    (h : renameFile ⟨Editor.asHost, config, encoding⟩ change w = .error cause w') :
    let a : Applier Editor := ⟨Editor.asHost, config, encoding⟩
    (a.renameOnDisk change w = .error cause w' ∧ w'.host = w.host) ∨
      ∃ moves between failure, a.renameOnDisk change w = .ok (some moves) between ∧
        (∃ made, DiskAction.rename moves.oldPath moves.newPath made = .ok () between.disk) ∧
        a.moveBuffers moves.oldPath moves.newPath moves.affected between = .error failure w' ∧
        cause = .host failure := by
  intro a
  have hw : w.SameHost (left (a.renameOnDisk change w)) := sameHost_renameOnDisk change w
  rw [renameFile_eq_bind] at h
  cases hdisk : a.renameOnDisk change w with
  | error failure between =>
    rw [bind_of_error hdisk] at h
    rw [hdisk] at hw
    cases h
    exact .inl ⟨rfl, hw⟩
  | ok found between =>
    rw [bind_of_ok hdisk] at h
    cases found with
    | none => cases h
    | some moves =>
      refine .inr ⟨moves, between, ?_⟩
      dsimp only at h
      cases hmove : a.moveBuffers moves.oldPath moves.newPath moves.affected between with
      | ok _ moved =>
        rw [bind_of_ok (ApplyAction.onHost_ok hmove)] at h
        cases h
      | error failure moved =>
        rw [bind_of_error (ApplyAction.onHost_error hmove)] at h
        cases h
        exact ⟨failure, rfl, exists_of_renameOnDisk hdisk, rfl, rfl⟩

theorem eq_of_renameFile_skipped {change : RenameFile} {reason : SkipReason}
    (h : renameFile ⟨Editor.asHost, config, encoding⟩ change w = .ok (.skipped reason) w') :
    w' = w := by
  rw [renameFile_eq_bind] at h
  obtain ⟨found, between, hdisk, h⟩ := exists_of_bind_ok h
  cases found with
  | none =>
    cases h
    exact eq_of_renameOnDisk hdisk
  | some moves =>
    obtain ⟨_, _, -, hpure⟩ := exists_of_bind_ok h
    cases hpure

/-! ## Creating and deleting -/

/-- A creation that fails opens no buffer. -/
theorem sparesHost_createFile (change : CreateFile) (w : World Editor) :
    SparesHost (createFile ⟨Editor.asHost, config, encoding⟩ change) w := by
  refine .bind (keeps_pathOf _) fun path w₁ h₁ => ?_
  refine .bind (ApplyAction.keeps_lookAtDisk _) fun present w₂ h₂ => .ite ?_ ?_
  · exact (sparesHost_loadBuffer path w₂).bind_pure _
  · exact .bind (sameHost_onDisk _ _) fun _ w₃ h₃ => (sparesHost_loadBuffer path w₃).bind_pure _

/-- A creation that is skipped has opened a buffer for the file, if none was open. -/
theorem cases_of_createFile_skipped {change : CreateFile} {reason : SkipReason}
    (h : createFile ⟨Editor.asHost, config, encoding⟩ change w = .ok (.skipped reason) w') :
    ∃ path, change.uri.toPath? = some path ∧
      (((w.host.findBuffer? path).isSome ∧ w' = w) ∨
        w.host.findBuffer? path = none ∧ ∃ text, Editor.readFile path w = .ok text w ∧
          w' = { w with host := (w.host.insertBuffer path text).2 }) := by
  obtain ⟨path, id, hpath, ⟨-, hload⟩ | ⟨happlied, -⟩⟩ := cases_of_createFile h
  · refine ⟨path, hpath, ?_⟩
    rcases Editor.cases_of_loadBuffer hload with ⟨hfind, rfl⟩ | ⟨hfresh, -, text, hread, rfl⟩
    · exact .inl ⟨by rw [hfind]; rfl, rfl⟩
    · exact .inr ⟨hfresh, text, hread, rfl⟩
  · cases happlied

/-- A deletion that fails gives no buffer up. -/
theorem sparesHost_deleteFile (hids : (w.host.buffers.map (·.id)).Nodup) (change : DeleteFile) :
    SparesHost (deleteFile ⟨Editor.asHost, config, encoding⟩ change) w := by
  refine .bind (keeps_pathOf _) fun path w₁ h₁ => ?_
  refine .bind (ApplyAction.keeps_lookAtDisk _) fun present w₂ h₂ => .ite ?_ ?_
  · exact .of_keeps (.ite (.pure _) (.throw _)) w₂
  · refine .bind (sameHost_onDisk _ _) fun _ w₃ h₃ => ?_
    have hhost : w₃.host = w.host := h₃.trans (h₂.trans h₁)
    have hdelete := deleteBuffers_under config encoding (hhost ▸ hids) path
    exact .of_ok ((bind_of_ok (buffersUnder_ok path w₃) _).trans
      (bind_of_ok (ApplyAction.onHost_ok hdelete) _))

theorem eq_of_deleteFile_skipped {change : DeleteFile} {reason : SkipReason}
    (h : deleteFile ⟨Editor.asHost, config, encoding⟩ change w = .ok (.skipped reason) w') :
    w' = w := by
  obtain ⟨path, -, ⟨-, hsame⟩ | ⟨happlied, -⟩⟩ := cases_of_deleteFile h
  · exact hsame
  · cases happlied

/-! ## All three operations -/

/-- In every editor whose buffers have different handles, and every file tree, an operation that fails
leaves the editor as it was, whatever it has done to the file tree before: a creation and a deletion
whenever they fail, and a renaming unless it has succeeded on the file tree and then fails to move the
buffers along. A renaming or a deletion that is skipped does nothing at all; a creation that is skipped
only opens the buffer of its file, with the text of the file, if it is not open. -/
theorem fileOperations_spare_host (config : Config) (encoding : Encoding) {w : World Editor}
    (hids : (w.host.buffers.map (·.id)).Nodup) :
    let a : Applier Editor := ⟨Editor.asHost, config, encoding⟩
    (∀ change cause w', a.createFile change w = .error cause w' → w'.host = w.host) ∧
      (∀ change reason w', a.createFile change w = .ok (.skipped reason) w' →
        ∃ path, change.uri.toPath? = some path ∧
          (((w.host.findBuffer? path).isSome ∧ w' = w) ∨
            w.host.findBuffer? path = none ∧ ∃ text, Editor.readFile path w = .ok text w ∧
              w' = { w with host := (w.host.insertBuffer path text).2 })) ∧
      (∀ change cause w', a.deleteFile change w = .error cause w' → w'.host = w.host) ∧
      (∀ change reason w', a.deleteFile change w = .ok (.skipped reason) w' → w' = w) ∧
      (∀ change cause w', a.renameFile change w = .error cause w' →
        (a.renameOnDisk change w = .error cause w' ∧ w'.host = w.host) ∨
          ∃ moves between failure, a.renameOnDisk change w = .ok (some moves) between ∧
            (∃ made, DiskAction.rename moves.oldPath moves.newPath made = .ok () between.disk) ∧
            a.moveBuffers moves.oldPath moves.newPath moves.affected between = .error failure w' ∧
            cause = .host failure) ∧
      ∀ change reason w', a.renameFile change w = .ok (.skipped reason) w' → w' = w := by
  intro a
  refine ⟨fun change cause w' => sparesHost_createFile change w cause w',
    fun change reason w' => cases_of_createFile_skipped,
    fun change cause w' => sparesHost_deleteFile hids change cause w',
    fun change reason w' => eq_of_deleteFile_skipped,
    fun change cause w' => cases_of_renameFile_error,
    fun change reason w' => eq_of_renameFile_skipped⟩

/-- A directory that is not empty is to be deleted, but not with what it holds, while a file in it is
shown. -/
theorem fileOperations_spare_host_directory :
    let a : Applier Editor := ⟨Editor.asHost, .standard, .utf16⟩
    let disk : Disk := ⟨[([[0x67]], .dir), ([[0x67], [0x61]], .file ⟨#[0x31]⟩)]⟩
    let host : Editor := ⟨[.new ⟨1⟩ (.ofString "/g/a") ['2']], [⟨⟨2⟩, ⟨1⟩, ⟨0, 1⟩⟩], some ⟨2⟩, 2⟩
    let uri : Uri := ⟨"file:///g".toList, by decide +kernel⟩
    let w' := left (a.deleteFile ⟨uri, false, false⟩ ⟨host, disk⟩)
    (host.buffers.map (·.id)).Nodup ∧
      a.deleteFile ⟨uri, false, false⟩ ⟨host, disk⟩ = .error (.deleteFailed uri .notEmpty) w' ∧
      w'.host = host := by
  intro a disk host uri w'
  have hids : (host.buffers.map (·.id)).Nodup := by decide
  have hrun : a.deleteFile ⟨uri, false, false⟩ ⟨host, disk⟩ =
      .error (.deleteFailed uri .notEmpty) w' := ApplyAction.eq_error_of_result (by decide +kernel)
  exact ⟨hids, hrun, (fileOperations_spare_host .standard .utf16 (w := ⟨host, disk⟩) hids).2.2.1
    _ _ _ hrun⟩

end Applier

end WorkspaceEditing
