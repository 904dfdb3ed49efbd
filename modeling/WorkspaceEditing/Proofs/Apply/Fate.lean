import WorkspaceEditing.Apply.Workspace
import WorkspaceEditing.Proofs.Apply.Rename
import WorkspaceEditing.Proofs.Disk.Files
import WorkspaceEditing.Proofs.Editor.Flush
import WorkspaceEditing.Proofs.Editor.Paths

/-!
# What becomes of files

A list of changes that deletes nothing and has no leave to overwrite loses no file, in a tree without
links. A file stays where it is while texts are edited and files are created; a renaming takes it
along if it lies at the old path or beneath it, and writes the open buffers there before. Whatever
else stands at the new path has been seen before, so that the change is skipped.

## Main definitions

* `Protocol.DocumentChange.IsGentle` — a change that deletes and overwrites nothing.
* `Applier.follow`, `Applier.followAll` — where a change, and a list of changes, leave a file.
* `World.Carries` — what a gentle change does to all files.

## Main results

* `Applier.carries_applyChange` — what one gentle change does to files.
* `Applier.applyWorkspaceEdit_files` — a workspace edit of gentle changes loses no file.
-/

namespace WorkspaceEditing

open Protocol

/-! ## Gentle changes -/

/-- The path of a URI, if it has one, never goes up. -/
def Uri.IsDirect (u : Uri) : Prop := ∀ path ∈ u.toPath?, path.IsDirect

instance (u : Uri) : Decidable u.IsDirect :=
  inferInstanceAs (Decidable (∀ path ∈ u.toPath?, path.IsDirect))

/-- A change that deletes nothing, has no leave to overwrite, and names no path that goes up. -/
def Protocol.DocumentChange.IsGentle : DocumentChange → Prop
  | .edit change => change.uri.IsDirect
  | .create change => change.overwrite = false ∧ change.uri.IsDirect
  | .rename change =>
    change.overwrite = false ∧ change.oldUri.IsDirect ∧ change.newUri.IsDirect
  | .delete _ => False

instance : ∀ change : DocumentChange, Decidable change.IsGentle
  | .edit change => inferInstanceAs (Decidable change.uri.IsDirect)
  | .create change => inferInstanceAs (Decidable (change.overwrite = false ∧ change.uri.IsDirect))
  | .rename change =>
    inferInstanceAs
      (Decidable (change.overwrite = false ∧ change.oldUri.IsDirect ∧ change.newUri.IsDirect))
  | .delete _ => inferInstanceAs (Decidable False)

/-! ## Where a file goes -/

namespace Applier

variable (a : Applier Editor)

/-- The part of a relocation that concerns the file tree: the buffers under the old path are written,
and the file or directory is renamed. -/
def relocateFiles (change : RenameFile) (oldPath newPath : Path) :
    ApplyAction Editor (List (BufferId × Path)) := do
  let affected ← a.buffersUnder oldPath
  .onHost (a.writeBuffers affected)
  .onDisk (.renameFailed change.oldUri change.newUri false) do
    createParents newPath
    DiskAction.rename oldPath newPath
  return affected

/-- The file after that part: its buffers may have been written, and if the file tree has been
changed it has gone along. -/
def followFiles (change : RenameFile) (oldPath newPath : Path) (w : World Editor) (f : FileAt) :
    FileAt :=
  let affected := w.host.bufferPaths.filter fun buffer => buffer.2.startsWith oldPath
  let f := f.rewritten (Editor.written affected w)
  match a.relocateFiles change oldPath newPath w with
  | .ok _ _ => f.moved oldPath.names newPath.names
  | .error _ _ => f

/-- The file after a renaming that has no leave to overwrite. If nothing is seen at the new path, the
buffers under the old one are written, and if the file tree is then changed, the file goes along. -/
def followRename (change : RenameFile) (w : World Editor) (f : FileAt) : FileAt :=
  match change.oldUri.toPath?, change.newUri.toPath? with
  | some oldPath, some newPath =>
    if w.disk.isPresent newPath then f else a.followFiles change oldPath newPath w f
  | _, _ => f

/-- The file after a change that deletes nothing and has no leave to overwrite. -/
def follow : DocumentChange → World Editor → FileAt → FileAt
  | .rename change, w => a.followRename change w
  | _, _ => id

/-- The file after a list of such changes. -/
def followAll : List DocumentChange → World Editor → FileAt → FileAt
  | [], _, f => f
  | change :: rest, w, f => followAll rest (left (a.applyChange change w)) (a.follow change w f)

end Applier

/-! ## Worlds in which no path goes up -/

/-- No link stands in the file tree, and no path of a buffer goes up. -/
structure World.Direct (w : World Editor) : Prop where
  plain : w.disk.IsPlain
  paths : ∀ b ∈ w.host.buffers, b.path.IsDirect

/-- What is done to the files between two worlds takes each to where `go` says, and no two to one
key. -/
structure World.Carries (go : FileAt → FileAt) (w w' : World Editor) : Prop where
  direct : w'.Direct
  holds : ∀ f, w.disk.Holds f → w'.disk.Holds (go f)
  apart : ∀ f g, w.disk.Holds f → w.disk.Holds g → (go f).key = (go g).key → f.key = g.key

namespace World.Carries

variable {go go' : FileAt → FileAt} {w w' w'' : World Editor}

theorem of_disk_eq (hw : w.Direct) (hdisk : w'.disk = w.disk)
    (hpaths : ∀ b ∈ w'.host.buffers, b.path.IsDirect) : Carries id w w' where
  direct := ⟨hdisk ▸ hw.plain, hpaths⟩
  holds f hf := by
    rw [hdisk]
    exact hf
  apart f g _ _ := id

theorem refl (hw : w.Direct) : Carries id w w := .of_disk_eq hw rfl hw.paths

theorem trans (h : Carries go w w') (h' : Carries go' w' w'') : Carries (go' ∘ go) w w'' where
  direct := h'.direct
  holds f hf := h'.holds _ (h.holds f hf)
  apart f g hf hg hkey := h.apart f g hf hg (h'.apart _ _ (h.holds f hf) (h.holds g hg) hkey)

/-- What follows an action and leaves the files alone does not change what has become of them. -/
theorem bind {ε α β : Type} {action : EStateM ε (World Editor) α}
    {next : α → EStateM ε (World Editor) β} (h : Carries go w (left (action w)))
    (hnext : ∀ value w', action w = .ok value w' → w'.Direct →
      Carries id w' (left (next value w'))) :
    Carries go w (left ((action >>= next) w)) := by
  apply left_bind
  · intro cause w' hrun
    rwa [hrun] at h
  · intro value w' hrun
    rw [hrun] at h
    exact h.trans (hnext value w' hrun h.direct)

end World.Carries

/-! ## What leaves the files alone -/

namespace Applier

variable (config : Config) (e : Encoding) {w w' : World Editor} {path oldPath newPath : Path}

theorem carries_of_samePaths (h : w.SamePaths w') (hw : w.Direct) : World.Carries id w w' := by
  refine .of_disk_eq hw h.1 fun b' hb' => ?_
  obtain ⟨b, hb, hpath⟩ := h.2 b' hb'
  exact hpath ▸ hw.paths b hb

theorem carries_loadBuffer (hw : w.Direct) (hp : path.IsDirect) :
    World.Carries id w (left (Editor.loadBuffer path w)) := by
  rcases Editor.left_loadBuffer path w with heq | ⟨-, text, heq⟩
  · rw [heq]
    exact .refl hw
  · rw [heq]
    refine .of_disk_eq hw rfl fun b hb => ?_
    rcases List.mem_append.1 hb with hb | hb
    · exact hw.paths b hb
    · rw [List.mem_singleton.1 hb]
      exact hp

theorem carries_onLoadBuffer (hw : w.Direct) (hp : path.IsDirect) :
    World.Carries id w (left (ApplyAction.onHost (Editor.asHost.loadBuffer path) w)) := by
  rw [ApplyAction.left_onHost]
  exact carries_loadBuffer hw hp

theorem carries_moveBuffers (oldPath : Path) (hw : w.Direct) (hnew : newPath.IsDirect)
    {bs : List (BufferId × Path)} (hbs : ∀ b ∈ bs, b.2.IsDirect) :
    World.Carries id w (left (moveBuffers ⟨Editor.asHost, config, e⟩ oldPath newPath bs w)) := by
  induction bs generalizing w with
  | nil => exact .refl hw
  | cons first rest ih =>
    have hrest : ∀ b ∈ rest, b.2.IsDirect := fun b hb => hbs b (List.mem_cons_of_mem _ hb)
    unfold moveBuffers
    cases hsuffix : first.2.stripPrefix? oldPath with
    | none => exact ih hw hrest
    | some suffix =>
      have hplace : (newPath.join suffix).IsDirect := by
        unfold Path.IsDirect
        rw [Path.names_join, Path.names_of_stripPrefix? hsuffix, List.mem_append]
        rintro (habove | habove)
        · exact hnew habove
        · exact hbs first List.mem_cons_self (List.mem_of_mem_drop habove)
      refine (carries_loadBuffer hw hplace).bind fun moved w₁ _ hw₁ => ?_
      have hwindows := Editor.keeps_samePaths.windowsShowing first.1 w₁
      refine (carries_of_samePaths hwindows hw₁).bind fun windows w₂ _ hw₂ => ?_
      have hshow := keeps_showIn (a := ⟨_, config, e⟩) Editor.keeps_samePaths moved windows w₂
      refine (carries_of_samePaths hshow hw₂).bind fun _ w₃ _ hw₃ => ?_
      have hdelete := Editor.keeps_samePaths.deleteBuffer first.1 w₃
      exact (carries_of_samePaths hdelete hw₃).bind fun _ w₄ _ hw₄ => ih hw₄ hrest

theorem carries_applyDocumentEdit (hw : w.Direct) {change : DocumentEdit}
    (hc : change.uri.IsDirect) :
    World.Carries id w (left (applyDocumentEdit ⟨Editor.asHost, config, e⟩ change w)) := by
  unfold applyDocumentEdit
  split_ifs
  · exact .refl hw
  · cases hpath : change.uri.toPath? with
    | none =>
      rw [bind_of_error (pathOf_error hpath)]
      exact .refl hw
    | some path =>
      rw [bind_of_ok (pathOf_ok hpath)]
      refine (carries_onLoadBuffer hw (hc path hpath)).bind fun buffer w₁ _ hw₁ => ?_
      have hedits := keeps_applyTextEdits (a := ⟨_, config, e⟩) Editor.keeps_samePaths buffer
        change.edits w₁
      rw [← ApplyAction.left_onHost] at hedits
      exact (carries_of_samePaths hedits hw₁).bind fun _ w₂ _ hw₂ => .refl hw₂

/-! ## Creating a file -/

theorem carries_create (hw : w.Direct) (hp : path.IsDirect)
    (hpresent : w.disk.isPresent path = false) (failure : DiskError → ApplyError)
    (contents : ByteArray) :
    World.Carries id w (left ((.onDisk failure do
      createParents path
      DiskAction.write path contents : ApplyAction Editor Unit) w)) := by
  rw [ApplyAction.left_onDisk]
  obtain ⟨hplain, hholds⟩ := DiskAction.holds_create hw.plain hp hpresent contents
  exact ⟨⟨hplain, hw.paths⟩, hholds, fun f g _ _ => id⟩

theorem carries_createFile (hw : w.Direct) {change : CreateFile}
    (hoverwrite : change.overwrite = false) (hc : change.uri.IsDirect) :
    World.Carries id w (left (createFile ⟨Editor.asHost, config, e⟩ change w)) := by
  unfold createFile
  cases hpath : change.uri.toPath? with
  | none =>
    rw [bind_of_error (pathOf_error hpath)]
    exact .refl hw
  | some path =>
    have hlook : (ApplyAction.lookAtDisk (·.isPresent path) : ApplyAction Editor Bool) w =
        .ok (w.disk.isPresent path) w := rfl
    rw [bind_of_ok (pathOf_ok hpath), bind_of_ok hlook, hoverwrite]
    have hp := hc path hpath
    cases hpresent : w.disk.isPresent path with
    | true => exact (carries_onLoadBuffer hw hp).bind fun _ w₁ _ hw₁ => .refl hw₁
    | false =>
      refine (carries_create hw hp hpresent _ _).bind fun _ w₁ _ hw₁ => ?_
      exact (carries_onLoadBuffer hw₁ hp).bind fun _ w₂ _ hw₂ => .refl hw₂

end Applier

/-! ## Renaming -/

section

variable {oldPath newPath : Path} (hold : oldPath.IsDirect) (hnew : newPath.IsDirect)
include hold hnew

namespace Applier

variable (config : Config) (e : Encoding) {w : World Editor}

/-- The part of a relocation that concerns the file tree writes the buffers and adds directories,
and then fails or renames. -/
theorem cases_of_relocateFiles (hw : w.Direct) (change : RenameFile) :
    let a : Applier Editor := ⟨Editor.asHost, config, e⟩
    let affected := w.host.bufferPaths.filter fun buffer => buffer.2.startsWith oldPath
    ∃ made : Disk, made.IsPlain ∧
      (∀ f, w.disk.Holds f → made.Holds (f.rewritten (Editor.written affected w))) ∧
      ((∃ cause, a.relocateFiles change oldPath newPath w = .error cause { w with disk := made }) ∨
        ∃ renamed, DiskAction.rename oldPath newPath made = .ok () renamed ∧
          a.relocateFiles change oldPath newPath w = .ok affected { w with disk := renamed }) := by
  intro a affected
  have hlook : a.buffersUnder oldPath w = .ok affected w := rfl
  obtain ⟨hhost, hplain, hholds⟩ := holds_writeBuffers config e hw.plain hw.paths affected
  unfold relocateFiles
  rw [bind_of_ok hlook]
  cases hwrite : a.writeBuffers affected w with
  | error cause w₁ =>
    rw [hwrite] at hhost hplain hholds
    obtain ⟨host, disk⟩ := w₁
    obtain rfl : host = w.host := hhost
    exact ⟨disk, hplain, hholds, .inl ⟨_, bind_of_error (ApplyAction.onHost_error hwrite) _⟩⟩
  | ok _ w₁ =>
    rw [hwrite] at hhost hplain hholds
    obtain ⟨host, disk⟩ := w₁
    obtain rfl : host = w.host := hhost
    rw [bind_of_ok (ApplyAction.onHost_ok hwrite)]
    obtain ⟨made, hplain', hholds', hcases⟩ :=
      DiskAction.cases_of_createParents_rename hold hnew hplain
    refine ⟨made, hplain', fun f hf => hholds' _ (hholds f hf), hcases.imp ?_ ?_⟩
    · rintro ⟨cause, herror⟩
      exact ⟨_, bind_of_error (ApplyAction.onDisk_error herror) _⟩
    · rintro ⟨renamed, hrename, hdone⟩
      exact ⟨renamed, hrename, bind_of_ok (ApplyAction.onDisk_ok hdone) _⟩

/-- If nothing is seen at the new path, no file is in the way of a renaming. -/
theorem carries_relocateFiles (hw : w.Direct) (hpresent : w.disk.isPresent newPath = false)
    (change : RenameFile) :
    let a : Applier Editor := ⟨Editor.asHost, config, e⟩
    World.Carries (a.followFiles change oldPath newPath w) w
      (left (a.relocateFiles change oldPath newPath w)) := by
  intro a
  unfold followFiles
  set affected := w.host.bufferPaths.filter fun buffer => buffer.2.startsWith oldPath
  obtain ⟨made, hplain, hholds, ⟨cause, hrun⟩ | ⟨renamed, hrename, hrun⟩⟩ :=
    cases_of_relocateFiles hold hnew config e hw change
  · rw [hrun]
    refine ⟨⟨hplain, hw.paths⟩, hholds, fun f g _ _ hkey => ?_⟩
    simpa using hkey
  rw [hrun]
  obtain ⟨hplain', hmoved⟩ := DiskAction.holds_rename hold hnew hplain hrename
  have hfree (f : FileAt) (hf : w.disk.Holds f) (hne : oldPath.names ≠ newPath.names) :
      (f.rewritten (Editor.written affected w)).key ≠ newPath.names := by
    intro heq
    have hfile' : made.IsFile newPath.names := heq ▸ ⟨_, hholds f hf⟩
    have hfile : w.disk.IsFile newPath.names := heq ▸ FileAt.key_rewritten f _ ▸ ⟨_, hf⟩
    have hseen := DiskAction.isPresent_of_rename hw.plain hplain hold hnew hrename hne hfile hfile'
    rw [hpresent] at hseen
    cases hseen
  have hmoves (f : FileAt) (hf : w.disk.Holds f) := hmoved _ (hholds f hf) (hfree f hf)
  refine ⟨⟨hplain', hw.paths⟩, fun f hf => (hmoves f hf).1, fun f g hf hg hkey => ?_⟩
  have hsame := (hmoves f hf).2 _ (hholds g hg) (hfree g hg) hkey
  simpa using hsame

end Applier

end

namespace Applier

variable (config : Config) (e : Encoding) {w : World Editor}

/-- A relocation is its part that concerns the file tree, and then moves the buffers. -/
theorem relocate_eq (a : Applier Editor) (change : RenameFile) (oldPath newPath : Path) :
    a.relocate change oldPath newPath = (do
      let affected ← a.relocateFiles change oldPath newPath
      .onHost (a.moveBuffers oldPath newPath affected)
      return .applied) := by
  simp only [relocate, relocateFiles, bind_assoc, pure_bind]

theorem carries_relocate (hw : w.Direct) {oldPath newPath : Path} (hold : oldPath.IsDirect)
    (hnew : newPath.IsDirect) (hpresent : w.disk.isPresent newPath = false) (change : RenameFile) :
    let a : Applier Editor := ⟨Editor.asHost, config, e⟩
    World.Carries (a.followFiles change oldPath newPath w) w
      (left (a.relocate change oldPath newPath w)) := by
  intro a
  rw [relocate_eq]
  have hfiles := carries_relocateFiles hold hnew config e hw hpresent change
  refine hfiles.bind fun affected w₁ hrun hw₁ => ?_
  have haffected : ∀ b ∈ affected, b.2.IsDirect := by
    obtain ⟨made, -, -, ⟨cause, herror⟩ | ⟨renamed, -, hok⟩⟩ :=
      cases_of_relocateFiles hold hnew config e hw change
    · cases herror.symm.trans hrun
    · cases hok.symm.trans hrun
      intro entry hentry
      obtain ⟨b, hb, rfl⟩ := List.mem_map.1 (List.mem_of_mem_filter hentry)
      exact hw.paths b hb
  have hmove := carries_moveBuffers config e oldPath hw₁ hnew haffected
  rw [← ApplyAction.left_onHost] at hmove
  exact hmove.bind fun _ w₂ _ hw₂ => .refl hw₂

/-- A renaming that has no leave to overwrite takes the files at the old path and beneath it along,
or none. -/
theorem carries_renameFile (hw : w.Direct) {change : RenameFile}
    (hoverwrite : change.overwrite = false) (hold : change.oldUri.IsDirect)
    (hnew : change.newUri.IsDirect) :
    let a : Applier Editor := ⟨Editor.asHost, config, e⟩
    World.Carries (a.followRename change w) w (left (a.renameFile change w)) := by
  intro a
  unfold followRename
  cases holdPath : change.oldUri.toPath? with
  | none =>
    unfold renameFile
    rw [bind_of_error (pathOf_error holdPath)]
    exact .refl hw
  | some oldPath =>
    cases hnewPath : change.newUri.toPath? with
    | none =>
      unfold renameFile
      rw [bind_of_ok (pathOf_ok holdPath), bind_of_error (pathOf_error hnewPath)]
      exact .refl hw
    | some newPath =>
      rw [renameFile_eq holdPath hnewPath, hoverwrite]
      cases hpresent : w.disk.isPresent newPath with
      | true =>
        simp only [hpresent, if_true, Bool.not_false, Bool.true_or]
        exact .refl hw
      | false =>
        simp only [hpresent, Bool.false_eq_true, if_false]
        exact carries_relocate config e hw (hold oldPath holdPath) (hnew newPath hnewPath) hpresent
          change

/-- What one gentle change does to files. -/
theorem carries_applyChange (hw : w.Direct) {change : DocumentChange} (hchange : change.IsGentle) :
    let a : Applier Editor := ⟨Editor.asHost, config, e⟩
    World.Carries (a.follow change w) w (left (a.applyChange change w)) := by
  intro a
  cases change with
  | edit change => exact carries_applyDocumentEdit config e hw hchange
  | create change => exact carries_createFile config e hw hchange.1 hchange.2
  | rename change => exact carries_renameFile config e hw hchange.1 hchange.2.1 hchange.2.2
  | delete change => exact hchange.elim

/-! ## Runs of changes -/

theorem carries_applyChanges (hw : w.Direct) {changes : List DocumentChange}
    (hchanges : ∀ change ∈ changes, change.IsGentle) (index : Nat) :
    let a : Applier Editor := ⟨Editor.asHost, config, e⟩
    World.Carries (a.followAll changes w) w (a.applyChanges index changes w).2 := by
  induction changes generalizing w index with
  | nil => exact .refl hw
  | cons change rest ih =>
    have hfirst := carries_applyChange config e hw
      (hchanges change List.mem_cons_self)
    have hrest := ih hfirst.direct (fun later hlater =>
      hchanges later (List.mem_cons_of_mem _ hlater)) (index + 1)
    simp only [applyChanges, ApplyAction.snd_result]
    exact hfirst.trans hrest

/-- A workspace edit of gentle changes loses no file, in a tree without links and with buffers whose
paths never go up: each file stands where the changes leave it, with its contents or those of the
buffers that were written to it, and no two files come to stand at one key. -/
theorem applyWorkspaceEdit_files (config : Config) (e : Encoding) {w : World Editor}
    (hplain : w.disk.IsPlain) (hpaths : ∀ b ∈ w.host.buffers, b.path.IsDirect)
    {changes : DocumentChanges} (hchanges : ∀ change ∈ changes.toList, change.IsGentle)
    (unordered : Option (List DocumentEdit)) :
    let a : Applier Editor := ⟨Editor.asHost, config, e⟩
    let w' := (a.applyWorkspaceEdit ⟨some changes, unordered⟩ w).2
    let fate := a.followAll changes.toList w
    (∀ f, w.disk.Holds f → w'.disk.Holds (fate f)) ∧
      ∀ f g, w.disk.Holds f → w.disk.Holds g → f.key ≠ g.key → (fate f).key ≠ (fate g).key := by
  intro a w' fate
  have hcarries : World.Carries fate w w' :=
    carries_applyChanges config e ⟨hplain, hpaths⟩ hchanges 0
  exact ⟨hcarries.holds, fun f g hf hg hne hkey => hne (hcarries.apart f g hf hg hkey)⟩

/-- A file is edited and its directory renamed, so that its new text is written and the file goes
along. A renaming to where another file is, with the same name, is skipped. -/
theorem applyWorkspaceEdit_files_directory :
    let disk : Disk := ⟨[([[0x70]], .dir), ([[0x70], [0x6d]], .file (Text.toBytes ['1', '\n'])),
      ([[0x70], [0x6e]], .file (Text.toBytes ['2', '\n'])),
      ([[0x6d]], .file (Text.toBytes ['3', '\n']))]⟩
    let changes : DocumentChanges := .operations [
      .edit ⟨⟨"file:///p/m".toList, by decide +kernel⟩, [⟨⟨⟨0, 0⟩, ⟨0, 1⟩⟩, ['4']⟩]⟩,
      .create ⟨⟨"file:///r/s".toList, by decide +kernel⟩, false⟩,
      .rename ⟨⟨"file:///p".toList, by decide +kernel⟩,
        ⟨"file:///q".toList, by decide +kernel⟩, false, false⟩,
      .rename ⟨⟨"file:///q/m".toList, by decide +kernel⟩,
        ⟨"file:///m".toList, by decide +kernel⟩, false, false⟩]
    let w : World Editor := ⟨.empty, disk⟩
    let a : Applier Editor := ⟨Editor.asHost, .standard, .utf16⟩
    let w' := (a.applyWorkspaceEdit ⟨some changes, none⟩ w).2
    let fate := a.followAll changes.toList w
    disk.IsPlain ∧ (∀ change ∈ changes.toList, change.IsGentle) ∧
      fate ⟨[[0x70], [0x6d]], Text.toBytes ['1', '\n']⟩ =
        ⟨[[0x71], [0x6d]], Text.toBytes ['4', '\n']⟩ ∧
      fate ⟨[[0x70], [0x6e]], Text.toBytes ['2', '\n']⟩ =
        ⟨[[0x71], [0x6e]], Text.toBytes ['2', '\n']⟩ ∧
      fate ⟨[[0x6d]], Text.toBytes ['3', '\n']⟩ = ⟨[[0x6d]], Text.toBytes ['3', '\n']⟩ ∧
      w.disk.Holds ⟨[[0x70], [0x6d]], Text.toBytes ['1', '\n']⟩ ∧
      (∀ f, w.disk.Holds f → w'.disk.Holds (fate f)) ∧
      ∀ f g, w.disk.Holds f → w.disk.Holds g → f.key ≠ g.key → (fate f).key ≠ (fate g).key := by
  intro disk changes w a w' fate
  have hplain : disk.IsPlain := .of_entries (by decide +kernel)
  have hgentle : ∀ change ∈ changes.toList, change.IsGentle := by decide +kernel
  have hfiles := applyWorkspaceEdit_files .standard .utf16 (w := w) hplain
    (fun b hb => nomatch hb) hgentle none
  refine ⟨hplain, hgentle, by decide +kernel, by decide +kernel, by decide +kernel,
    by decide +kernel, ?_⟩
  with_reducible exact hfiles

end Applier

end WorkspaceEditing
