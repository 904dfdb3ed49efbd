import WorkspaceEditing.Proofs.Disk.Revisit
import WorkspaceEditing.Proofs.Session.Rename

/-!
# Creating in a session

A creation that is applied leaves an empty file, wherever links lead, and a buffer that is open for it.
If none was open, the buffer is new and empty. One that was open already, however, is taken as it is,
with the text that it has; so a file that is created over another one, or before an unsaved buffer was
written, need not have the text of its buffer.

## Main results

* `Applier.createFile_opens` — the file and the buffer that an applied creation leaves.
* `Applier.createFile_keeps_stale` — the buffer of a file that is emptied keeps its text.
-/

namespace WorkspaceEditing

open Protocol

namespace Applier

variable {config : Config} {encoding : Encoding} {change : CreateFile} {w w' : World Editor}
  {path : Path}

/-- A creation that does not fail is skipped and only loads the buffer of its file, or it is applied,
has written an empty file, and then loads its buffer. -/
theorem cases_of_createFile {status : ChangeStatus}
    (h : createFile ⟨Editor.asHost, config, encoding⟩ change w = .ok status w') :
    ∃ path id, change.uri.toPath? = some path ∧
      ((status = .skipped .alreadyExists ∧ Editor.loadBuffer path w = .ok id w') ∨
        status = .applied ∧ ∃ made disk,
          DiskAction.write path ByteArray.empty made = .ok () disk ∧
            Editor.loadBuffer path { w with disk } = .ok id w') := by
  obtain ⟨path, w₁, hfound, h⟩ := exists_of_bind_ok h
  obtain ⟨present, w₂, hlook, h⟩ := exists_of_bind_ok h
  obtain ⟨hpath, rfl⟩ := toPath?_of_pathOf hfound
  cases hlook
  split_ifs at h
  · obtain ⟨id, w₃, hload, hpure⟩ := exists_of_bind_ok h
    cases hpure
    exact ⟨path, id, hpath, .inl ⟨rfl, ApplyAction.ok_of_onHost hload⟩⟩
  · obtain ⟨_, w₃, hwrite, h⟩ := exists_of_bind_ok h
    obtain ⟨id, w₄, hload, hpure⟩ := exists_of_bind_ok h
    obtain ⟨disk, hdisk, rfl⟩ := ApplyAction.ok_of_onDisk hwrite
    obtain ⟨_, made, -, hwritten⟩ := exists_of_bind_ok hdisk
    cases hpure
    exact ⟨path, id, hpath, .inr ⟨rfl, made, disk, hwritten, ApplyAction.ok_of_onHost hload⟩⟩

/-- An empty file makes an empty buffer. -/
theorem text_of_readFile_nil {text : Text} (hempty : w.disk.readText? path = .ok [])
    (hread : Editor.readFile path w = .ok text w') : text = [] := by
  unfold Editor.readFile at hread
  rw [hempty] at hread
  cases hread
  rfl

/-- A creation that is applied leaves an empty file at its path, whatever links the file tree has, and
a buffer that is open for it. If no buffer was open for the path, then this one is new and has no text;
otherwise the editor is as it was, and the text of the buffer with it. -/
theorem createFile_opens
    (happlied : createFile ⟨Editor.asHost, config, encoding⟩ change w = .ok .applied w') :
    ∃ path, change.uri.toPath? = some path ∧ w'.disk.readText? path = .ok [] ∧
      ∃ b ∈ w'.host.buffers, w'.host.findBuffer? path = some b.id ∧ b.path.same path = true ∧
        ((w.host.findBuffer? path = none ∧ b.text = [] ∧
            w'.host = (w.host.insertBuffer path []).2) ∨
          (w.host.findBuffer? path = some b.id ∧ w'.host = w.host)) := by
  obtain ⟨path, id, hpath, ⟨hskipped, -⟩ | ⟨-, made, disk, hwritten, hload⟩⟩ :=
    cases_of_createFile happlied
  · cases hskipped
  have hnothing : DiskAction.write path (Text.toBytes []) made = .ok () disk := hwritten
  have hempty : disk.readText? path = .ok [] := DiskAction.readText?_of_write hnothing
  refine ⟨path, hpath, ?_⟩
  rcases Editor.cases_of_loadBuffer hload with ⟨hfind, rfl⟩ | ⟨hfresh, -, text, hread, rfl⟩
  · obtain ⟨b, hb, rfl⟩ := Option.map_eq_some_iff.1 hfind
    exact ⟨hempty, b, List.mem_of_find?_eq_some hb, hfind, by simpa using List.find?_some hb,
      .inr ⟨hfind, rfl⟩⟩
  · obtain rfl := text_of_readFile_nil hempty hread
    refine ⟨hempty, Buffer.new ⟨w.host.issued + 1⟩ path [],
      List.mem_append_right _ (List.mem_singleton_self _), ?_, by simp [Buffer.new, Path.same],
      .inl ⟨hfresh, rfl, rfl⟩⟩
    have hnone := Option.map_eq_none_iff.1 hfresh
    simp only [Editor.findBuffer?, Editor.insertBuffer, List.find?_append]
    simp only at hnone
    rw [hnone]
    simp [Buffer.new, Path.same]

/-- A file is created at a path that leads through two links to a free name, while a buffer is open at
another path to the same place. -/
theorem createFile_opens_link :
    let disk : Disk := ⟨[([[0x6c]], .link [0x6d]), ([[0x6d]], .dir), ([[0x6d], [0x78]], .link [0x79])]⟩
    let w := Session.run ⟨.empty, disk⟩ [.editor (.insertBuffer (.ofString "/m/x") ['1'])]
    let change : CreateFile := ⟨⟨"file:///l/x".toList, by decide +kernel⟩, true⟩
    let w' := left (createFile ⟨Editor.asHost, .standard, .utf16⟩ change w)
    createFile ⟨Editor.asHost, .standard, .utf16⟩ change w = .ok .applied w' ∧
      ∃ path, change.uri.toPath? = some path ∧ w'.disk.readText? path = .ok [] ∧
        ∃ b ∈ w'.host.buffers, w'.host.findBuffer? path = some b.id ∧ b.path.same path = true ∧
          ((w.host.findBuffer? path = none ∧ b.text = [] ∧
              w'.host = (w.host.insertBuffer path []).2) ∨
            (w.host.findBuffer? path = some b.id ∧ w'.host = w.host)) := by
  intro disk w change w'
  have happlied : createFile ⟨Editor.asHost, .standard, .utf16⟩ change w = .ok .applied w' :=
    ApplyAction.eq_ok_of_result (by decide +kernel)
  exact ⟨happlied, createFile_opens happlied⟩

/-- A file is open and created again, with leave to overwrite it: the file is emptied, and its buffer
keeps the old text, so that an edit of the first line in the same workspace edit is made to that. -/
theorem createFile_keeps_stale :
    let disk : Disk := ⟨[([[0x7a]], .file (Text.toBytes ['o', 'l', 'd', '\n']))]⟩
    let w := Session.run ⟨.empty, disk⟩ [.editor (.call (.loadBuffer (.ofString "/z")))]
    let uri : Uri := ⟨"file:///z".toList, by decide +kernel⟩
    let a : Applier Editor := ⟨Editor.asHost, .standard, .utf16⟩
    let result := (a.createFile ⟨uri, true⟩).result w
    let edited := a.applyWorkspaceEdit ⟨some (.operations [.create ⟨uri, true⟩,
      .edit ⟨uri, [⟨⟨⟨0, 0⟩, ⟨0, 0⟩⟩, ['n', 'e', 'w']⟩]⟩]), none⟩ w
    result.1 = .ok .applied ∧ result.2.disk.readText? (.ofString "/z") = .ok [] ∧
      result.2.host.findBuffer? (.ofString "/z") = some ⟨1⟩ ∧
      result.2.host.text? ⟨1⟩ = some ['o', 'l', 'd'] ∧
      edited.2.host.text? ⟨1⟩ = some ['n', 'e', 'w', 'o', 'l', 'd'] := by
  decide +kernel

end Applier

end WorkspaceEditing
