import WorkspaceEditing.Proofs.Apply.Keeps
import WorkspaceEditing.Proofs.Disk.Operations
import WorkspaceEditing.Proofs.Editor.Calls

/-!
# Renaming and the files that are renamed

A renaming first makes way at the new path, then writes the buffers, renames on the file tree, and
moves the buffers along. In a tree without links it loses no file that is to be renamed, if what it
makes way for is no part of it: neither path may lead through the other while something is removed.

## Main results

* `Applier.renameFile_eq` — a renaming is skipped, or makes way and relocates.
* `Applier.renameFile_files` — no file is lost to a renaming between paths apart.
* `Applier.renameFile_destroys` — a file is lost if it is renamed to where it is.
-/

namespace WorkspaceEditing

open Protocol
open Disk (Spares)

variable {σ α : Type} {w w' : World σ}

/-! ## Steps of a renaming -/

namespace ApplyAction

theorem ok_of_onHost {call : HostAction σ α} {value : α} (h : onHost call w = .ok value w') :
    call w = .ok value w' := by
  unfold onHost at h
  cases hcall : call w with
  | ok found between =>
    rw [hcall] at h
    cases h
    rfl
  | error cause between =>
    rw [hcall] at h
    cases h

theorem onHost_ok {call : HostAction σ α} {value : α} (h : call w = .ok value w') :
    onHost call w = .ok value w' := by
  rw [onHost, h]

theorem onHost_error {call : HostAction σ α} {cause : HostError} (h : call w = .error cause w') :
    onHost call w = .error (.host cause) w' := by
  rw [onHost, h]

theorem error_of_onHost {call : HostAction σ α} {cause : ApplyError}
    (h : onHost call w = .error cause w') :
    ∃ failure, call w = .error failure w' ∧ cause = .host failure := by
  unfold onHost at h
  cases hcall : call w with
  | ok found between =>
    rw [hcall] at h
    cases h
  | error failure between =>
    rw [hcall] at h
    cases h
    exact ⟨failure, rfl, rfl⟩

theorem onDisk_ok {failure : DiskError → ApplyError} {action : DiskAction α} {value : α}
    {disk : Disk} (h : action w.disk = .ok value disk) :
    onDisk failure action w = .ok value { w with disk } := by
  rw [onDisk, h]

theorem onDisk_error {failure : DiskError → ApplyError} {action : DiskAction α}
    {cause : DiskError} {disk : Disk} (h : action w.disk = .error cause disk) :
    onDisk failure action w = .error (failure cause) { w with disk } := by
  rw [onDisk, h]

theorem ok_of_onDisk {failure : DiskError → ApplyError} {action : DiskAction α} {value : α}
    (h : onDisk failure action w = .ok value w') :
    ∃ disk, action w.disk = .ok value disk ∧ w' = { w with disk } := by
  unfold onDisk at h
  cases haction : action w.disk with
  | ok found disk =>
    rw [haction] at h
    cases h
    exact ⟨disk, rfl, rfl⟩
  | error cause disk =>
    rw [haction] at h
    cases h

/-- An action that gives a value as its result succeeds. -/
theorem eq_ok_of_result {action : ApplyAction σ α} {value : α}
    (h : (action.result w).1 = .ok value) : action w = .ok value (left (action w)) := by
  unfold result at h
  cases haction : action w with
  | ok found w' =>
    simp only [haction, Except.ok.injEq] at h
    rw [h]
    rfl
  | error cause w' =>
    simp only [haction] at h
    cases h

/-- An action that gives an error as its result fails. -/
theorem eq_error_of_result {action : ApplyAction σ α} {cause : ApplyError}
    (h : (action.result w).1 = .error cause) : action w = .error cause (left (action w)) := by
  unfold result at h
  cases haction : action w with
  | ok found w' =>
    simp only [haction] at h
    cases h
  | error failure w' =>
    simp only [haction, Except.error.injEq] at h
    rw [h]
    rfl

theorem snd_result (action : ApplyAction σ α) (w : World σ) :
    (action.result w).2 = left (action w) := by
  unfold result
  cases action w <;> rfl

theorem left_onHost (call : HostAction σ α) (w : World σ) :
    left (onHost call w) = left (call w) := by
  unfold onHost
  cases call w <;> rfl

theorem left_onDisk (failure : DiskError → ApplyError) (action : DiskAction α) (w : World σ) :
    left (onDisk failure action w) = { w with disk := left (action w.disk) } := by
  unfold onDisk
  cases action w.disk <;> rfl

end ApplyAction

namespace Applier

variable {a : Applier σ} {change : RenameFile} {oldPath newPath : Path}

theorem pathOf_ok {uri : Uri} {path : Path} (h : uri.toPath? = some path) :
    (pathOf uri : ApplyAction σ Path) w = .ok path w := by
  rw [pathOf, h]
  rfl

theorem pathOf_error {uri : Uri} (h : uri.toPath? = none) :
    (pathOf uri : ApplyAction σ Path) w = .error (.invalidUri uri) w := by
  rw [pathOf, h]
  rfl

theorem toPath?_of_pathOf {uri : Uri} {path : Path}
    (h : (pathOf uri : ApplyAction σ Path) w = .ok path w') :
    uri.toPath? = some path ∧ w' = w := by
  cases hpath : uri.toPath? with
  | none => cases (pathOf_error hpath).symm.trans h
  | some found =>
    cases (pathOf_ok hpath).symm.trans h
    exact ⟨rfl, rfl⟩

/-- A renaming between two paths is skipped, or makes way at the new one, or finds nothing in the
way. -/
theorem renameFile_eq (hold : change.oldUri.toPath? = some oldPath)
    (hnew : change.newUri.toPath? = some newPath) (w : World σ) :
    a.renameFile change w =
      if w.disk.isPresent newPath then
        if !change.overwrite || change.ignoreIfExists then .ok (.skipped .targetExists) w
        else (do
          .onDisk (.renameFailed change.oldUri change.newUri true) (DiskAction.remove newPath true)
          a.relocate change oldPath newPath : ApplyAction σ ChangeStatus) w
      else a.relocate change oldPath newPath w := by
  have hlook : (ApplyAction.lookAtDisk (·.isPresent newPath) : ApplyAction σ Bool) w =
      .ok (w.disk.isPresent newPath) w := rfl
  unfold renameFile
  rw [bind_of_ok (pathOf_ok hold), bind_of_ok (pathOf_ok hnew), bind_of_ok hlook]
  split_ifs <;> rfl

/-- A renaming that is applied has made way at the new path, if anything was there, and
relocated. -/
theorem exists_of_renameFile (hold : change.oldUri.toPath? = some oldPath)
    (hnew : change.newUri.toPath? = some newPath) (h : a.renameFile change w = .ok .applied w') :
    ∃ disk, (disk = w.disk ∨ DiskAction.remove newPath true w.disk = .ok () disk) ∧
      a.relocate change oldPath newPath { w with disk } = .ok .applied w' := by
  rw [renameFile_eq hold hnew] at h
  split_ifs at h
  · cases h
  · obtain ⟨_, between, hremove, hrelocate⟩ := exists_of_bind_ok h
    obtain ⟨disk, hdisk, rfl⟩ := ApplyAction.ok_of_onDisk hremove
    exact ⟨disk, .inr hdisk, hrelocate⟩
  · exact ⟨w.disk, .inl rfl, h⟩

/-- A relocation has written the buffers under the old path, renamed, and moved these buffers. -/
theorem exists_of_relocate {affected : List (BufferId × Path)}
    (haffected : a.buffersUnder oldPath w = .ok affected w)
    (h : a.relocate change oldPath newPath w = .ok .applied w') :
    ∃ (written : World σ) (made renamed : Disk), a.writeBuffers affected w = .ok () written ∧
      createParents newPath written.disk = .ok () made ∧
      DiskAction.rename oldPath newPath made = .ok () renamed ∧
      a.moveBuffers oldPath newPath affected { written with disk := renamed } = .ok () w' := by
  unfold relocate at h
  rw [bind_of_ok haffected] at h
  obtain ⟨_, written, hwrite, h⟩ := exists_of_bind_ok h
  obtain ⟨_, between, hrename, h⟩ := exists_of_bind_ok h
  obtain ⟨renamed, hrenamed, rfl⟩ := ApplyAction.ok_of_onDisk hrename
  obtain ⟨_, made, hmade, hrenamed⟩ := exists_of_bind_ok hrenamed
  obtain ⟨_, moved, hmove, h⟩ := exists_of_bind_ok h
  cases h
  exact ⟨written, made, renamed, ApplyAction.ok_of_onHost hwrite, hmade, hrenamed,
    ApplyAction.ok_of_onHost hmove⟩

end Applier

/-! ## Files that stay -/

/-- A plain tree stays plain, and the files at some of its keys stay files. -/
def World.Spares (spared : Key → Prop) (w w' : World σ) : Prop := w.disk.Spares spared w'.disk

instance (spared : Key → Prop) : IsPreorder (World σ) (World.Spares spared) where
  refl w := refl_of (Spares spared) w.disk
  trans w w' w'' := trans_of (Spares spared) (a := w.disk) (b := w'.disk) (c := w''.disk)

theorem World.Spares.of_disk_eq {spared : Key → Prop} (h : w'.disk = w.disk) :
    World.Spares spared w w' := by
  unfold World.Spares
  rw [h]
  exact refl_of _ _

/-- The file tree is as it was. -/
def World.SameDisk (w w' : World σ) : Prop := w'.disk = w.disk

instance : IsPreorder (World σ) World.SameDisk where
  refl _ := rfl
  trans _ _ _ h h' := h'.trans h

namespace Editor

theorem sameDisk_look (read : Editor → Except HostError α) :
    Keeps World.SameDisk (HostAction.look read) :=
  fun w => congrArg World.disk (HostAction.left_look read w)

theorem sameDisk_update (f : Editor → Except HostError Editor) :
    Keeps World.SameDisk (HostAction.update f) := HostAction.disk_update f

/-- The calls of the editor that have nothing to do with files leave the tree as it is, -/
theorem keeps_sameDisk : asHost.KeepsInMemory World.SameDisk where
  buffers _ := rfl
  setListed id := sameDisk_update (·.setListed id)
  line id index := sameDisk_look (·.line id index)
  lineCount id := sameDisk_look (·.lineCount id)
  setText id r newLines := sameDisk_update (·.setText id r newLines)
  focusedBuffer _ := rfl
  cursor _ := rfl
  setCursor p := sameDisk_update (·.setCursor p)
  marks id := sameDisk_look (·.marks id)
  setMarks id ms := sameDisk_update (·.setMarks id ms)
  deleteBuffer id := sameDisk_update (·.deleteBuffer id)
  windowsShowing _ _ := rfl
  setWindowBuffer win id := sameDisk_update (·.setWindowBuffer win id)
  fixesEndOfLine id := sameDisk_look (·.fixesEndOfLine id)

/-- and so does loading a buffer. -/
theorem sameDisk_loadBuffer (path : Path) : Keeps World.SameDisk (loadBuffer path) := by
  intro w
  show (left (loadBuffer path w)).disk = w.disk
  rcases left_loadBuffer path w with heq | ⟨-, text, heq⟩
  · rw [heq]
  · rw [heq]

theorem spares_writeBuffer (spared : Key → Prop) (id : BufferId) :
    Keeps (World.Spares spared) (writeBuffer id) := by
  intro w
  rcases left_writeBuffer id w with heq | ⟨b, heq⟩
  · rw [heq]
    exact refl_of _ w
  · rw [heq]
    exact DiskAction.spares_write b.path b.contents.toBytes spared w.disk

/-- The editor changes the tree only where it writes a buffer, and that leaves all files. -/
theorem keeps_spares (spared : Key → Prop) : asHost.Keeps (World.Spares spared) where
  toKeepsInMemory := keeps_sameDisk.mono fun _ _ => .of_disk_eq
  loadBuffer path w := .of_disk_eq (sameDisk_loadBuffer path w)
  writeBuffer := spares_writeBuffer spared

end Editor

/-! ## No file is lost -/

/-- In a tree without links, a file stands at one of some keys. -/
def Disk.HasFile (keys : List Key) (d : Disk) : Prop := d.IsPlain ∧ ∃ key ∈ keys, d.IsFile key

/-- In a tree without links, a file stands at one of some keys. -/
def World.HasFile (keys : List Key) (w : World σ) : Prop := w.disk.HasFile keys

section

variable {keys keys' : List Key} {spared : Key → Prop}

theorem Disk.HasFile.of_spares {d d' : Disk} (h : d.HasFile keys) (hspares : d.Spares spared d')
    (hkeys : ∀ key ∈ keys, spared key) : d'.HasFile keys := by
  obtain ⟨hplain, key, hkey, hfile⟩ := h
  exact ⟨(hspares hplain).1, key, hkey, (hspares hplain).2 key (hkeys key hkey) hfile⟩

theorem Disk.HasFile.mono {d : Disk} (h : d.HasFile keys) (hkeys : keys ⊆ keys') :
    d.HasFile keys' := by
  obtain ⟨hplain, key, hkey, hfile⟩ := h
  exact ⟨hplain, key, hkeys hkey, hfile⟩

/-- What spares all files leaves the file somewhere. -/
theorem World.HasFile.of_keeps {ε : Type} {action : EStateM ε (World σ) α} (h : w.HasFile keys)
    (hkeeps : Keeps (World.Spares fun _ => True) action) : (left (action w)).HasFile keys :=
  Disk.HasFile.of_spares h (hkeeps w) fun _ _ => trivial

end

section

variable {oldPath newPath : Path} {rest : Key}

/-- Renaming leaves a file beneath the old path, or takes it to the new one. -/
theorem DiskAction.hasFile_rename {d : Disk} (hold : oldPath.IsDirect) (hnew : newPath.IsDirect)
    (h : d.HasFile [oldPath.names ++ rest]) :
    (left (rename oldPath newPath d)).HasFile [oldPath.names ++ rest, newPath.names ++ rest] := by
  obtain ⟨hplain, key, hkey, hfile⟩ := h
  obtain rfl := List.mem_singleton.1 hkey
  have hstays : d.HasFile [oldPath.names ++ rest, newPath.names ++ rest] :=
    ⟨hplain, _, List.mem_cons_self, hfile⟩
  refine Commits.rel_left
    (R := fun _ d' => d'.HasFile [oldPath.names ++ rest, newPath.names ++ rest])
    ((commits_rename hplain hold hnew).mono ?_) hstays
  rintro _ d' (⟨-, rfl⟩ | ⟨hmovable, rfl⟩)
  · exact hstays
  · refine ⟨hmovable.isPlain_move hplain, newPath.names ++ rest, by simp, ?_⟩
    unfold Disk.IsFile
    rw [hmovable.get?_move_append]
    exact hfile

namespace Applier

variable {a : Applier σ} {change : RenameFile}

/-- Once nothing is in the way, no file beneath the old path is lost. -/
theorem relocate_files (h : a.host.Keeps (World.Spares fun _ => True)) (hold : oldPath.IsDirect)
    (hnew : newPath.IsDirect) (hfile : w.HasFile [oldPath.names ++ rest]) :
    (left (a.relocate change oldPath newPath w)).HasFile
      [oldPath.names ++ rest, newPath.names ++ rest] := by
  have hstays (w : World σ) (hw : w.HasFile [oldPath.names ++ rest]) :
      w.HasFile [oldPath.names ++ rest, newPath.names ++ rest] :=
    Disk.HasFile.mono hw (List.cons_subset_cons _ (List.nil_subset _))
  -- up to the renaming the file is in its place
  refine left_bind_of (hfile.of_keeps (keeps_buffersUnder h oldPath)) hstays
    fun affected w₁ hw₁ => ?_
  refine left_bind_of (hw₁.of_keeps (ApplyAction.keeps_onHost (keeps_writeBuffers h affected)))
    hstays fun _ w₂ hw₂ => ?_
  -- afterwards it is in one of the two places
  have hrename : (left (ApplyAction.onDisk (.renameFailed change.oldUri change.newUri false)
      (do createParents newPath; DiskAction.rename oldPath newPath) w₂)).HasFile
      [oldPath.names ++ rest, newPath.names ++ rest] := by
    rw [ApplyAction.left_onDisk]
    have hparents : w₂.disk.Spares (fun _ => True) (left (createParents newPath w₂.disk)) :=
      (DiskAction.extends_createParents newPath w₂.disk).spares
    have hplace := Disk.HasFile.of_spares hw₂ hparents fun _ _ => trivial
    exact left_bind_of hplace (fun d hd => hd.mono (List.cons_subset_cons _ (List.nil_subset _)))
      fun _ d hd => DiskAction.hasFile_rename hold hnew hd
  refine left_bind_of hrename (fun _ => id) fun _ w₃ hw₃ => ?_
  exact left_bind_of (hw₃.of_keeps (ApplyAction.keeps_onHost
    (keeps_moveBuffers h.toKeepsInMemory h.loadBuffer oldPath newPath affected)))
    (fun _ => id) fun _ _ => id

/-- Whether a renaming is applied, skipped or fails, in a tree without links every file at the old
path or beneath it is afterwards in its place or at the corresponding place under the new path,
unless one of the paths leads through the other and something there is to be overwritten. -/
theorem renameFile_files (config : Config) (e : Encoding) {w : World Editor}
    (hplain : w.disk.IsPlain) (holdUri : change.oldUri.toPath? = some oldPath)
    (hnewUri : change.newUri.toPath? = some newPath) (hold : oldPath.IsDirect)
    (hnew : newPath.IsDirect)
    (hapart : w.disk.isPresent newPath = true → change.overwrite = true →
      change.ignoreIfExists = false →
      ¬ oldPath.names <+: newPath.names ∧ ¬ newPath.names <+: oldPath.names)
    (hfile : w.disk.IsFile (oldPath.names ++ rest)) :
    let w' := left (renameFile ⟨Editor.asHost, config, e⟩ change w)
    w'.disk.IsFile (oldPath.names ++ rest) ∨ w'.disk.IsFile (newPath.names ++ rest) := by
  suffices hkept : (left (renameFile ⟨Editor.asHost, config, e⟩ change w)).HasFile
      [oldPath.names ++ rest, newPath.names ++ rest] by
    obtain ⟨-, key, hkey, hfile⟩ := hkept
    simp only [List.mem_cons, List.not_mem_nil, or_false] at hkey
    rcases hkey with rfl | rfl
    · exact .inl hfile
    · exact .inr hfile
  have hplace : w.HasFile [oldPath.names ++ rest] := ⟨hplain, _, List.mem_singleton_self _, hfile⟩
  have hstays (w : World Editor) (hw : w.HasFile [oldPath.names ++ rest]) :
      w.HasFile [oldPath.names ++ rest, newPath.names ++ rest] :=
    Disk.HasFile.mono hw (List.cons_subset_cons _ (List.nil_subset _))
  have hrelocate (w : World Editor) (hw : w.HasFile [oldPath.names ++ rest]) :
      (left (relocate ⟨Editor.asHost, config, e⟩ change oldPath newPath w)).HasFile
        [oldPath.names ++ rest, newPath.names ++ rest] :=
    relocate_files (Editor.keeps_spares fun _ => True) hold hnew hw
  rw [renameFile_eq holdUri hnewUri]
  split_ifs with hpresent hskip
  · exact hstays w hplace
  · obtain ⟨hoverwrite, hignore⟩ : change.overwrite = true ∧ change.ignoreIfExists = false := by
      simpa using hskip
    obtain ⟨hbeneath, habove⟩ := hapart hpresent hoverwrite hignore
    have hspared : ¬ newPath.names <+: oldPath.names ++ rest := fun hleads =>
      (List.prefix_or_prefix_of_prefix hleads (List.prefix_append _ rest)).elim habove hbeneath
    have hremove : (left (ApplyAction.onDisk (.renameFailed change.oldUri change.newUri true)
        (DiskAction.remove newPath true) w)).HasFile [oldPath.names ++ rest] := by
      rw [ApplyAction.left_onDisk]
      exact Disk.HasFile.of_spares hplace (DiskAction.spares_remove hnew true w.disk)
        (by simpa using hspared)
    exact left_bind_of hremove hstays fun _ => hrelocate
  · exact hrelocate w hplace

/-- A directory is renamed over another one, which is not empty. -/
theorem renameFile_files_directory :
    let oldPath : Path := .ofString "/a"
    let newPath : Path := .ofString "/b"
    let disk : Disk := ⟨[([[0x61]], .dir), ([[0x61], [0x78]], .file ⟨#[0x31]⟩), ([[0x62]], .dir),
      ([[0x62], [0x79]], .file ⟨#[0x32]⟩)]⟩
    let change : RenameFile := ⟨⟨"file:///a".toList, by decide +kernel⟩,
      ⟨"file:///b".toList, by decide +kernel⟩, true, false⟩
    let w' := left (renameFile ⟨Editor.asHost, .standard, .utf16⟩ change ⟨.empty, disk⟩)
    disk.IsPlain ∧ disk.IsFile (oldPath.names ++ [[0x78]]) ∧
      (w'.disk.IsFile (oldPath.names ++ [[0x78]]) ∨
        w'.disk.IsFile (newPath.names ++ [[0x78]])) := by
  intro oldPath newPath disk change
  have hplain : disk.IsPlain := .of_entries (by decide)
  have hfile : disk.IsFile (oldPath.names ++ [[0x78]]) := ⟨⟨#[0x31]⟩, by decide +kernel⟩
  exact ⟨hplain, hfile, renameFile_files .standard .utf16 (w := ⟨.empty, disk⟩) hplain
    (by decide +kernel) (by decide +kernel) (by decide +kernel) (by decide +kernel)
    (fun _ _ _ => by decide +kernel) hfile⟩

/-- A file that is renamed to where it is, with leave to overwrite, is lost: it is itself what is in
the way. -/
theorem renameFile_destroys :
    let path : Path := .ofString "/a"
    let disk : Disk := ⟨[([[0x61]], .file ⟨#[0x31]⟩)]⟩
    let uri : Uri := ⟨"file:///a".toList, by decide +kernel⟩
    let w' := left (renameFile ⟨Editor.asHost, .standard, .utf16⟩ ⟨uri, uri, true, false⟩
      ⟨.empty, disk⟩)
    uri.toPath? = some path ∧ path.IsDirect ∧ disk.IsPlain ∧ disk.IsFile path.names ∧
      ¬ w'.disk.IsFile path.names := by
  intro path disk uri w'
  refine ⟨by decide +kernel, by decide +kernel, .of_entries (by decide),
    ⟨⟨#[0x31]⟩, by decide +kernel⟩, ?_⟩
  have hlost : w'.disk.get? path.names = none := by decide +kernel
  rintro ⟨contents, hfile⟩
  rw [hlost] at hfile
  cases hfile

end Applier

end

end WorkspaceEditing
