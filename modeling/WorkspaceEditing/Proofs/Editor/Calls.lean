import WorkspaceEditing.Editor.Operations
import WorkspaceEditing.Proofs.Host.Action

/-!
# Loading and writing

Most operations of the editor have nothing to do with files. Two have: a buffer that is loaded is
read from its file, unless it is open already, and this changes the editor only; a buffer that is
written to its file changes the file tree only.

## Main results

* `Editor.cases_of_loadBuffer`, `Editor.left_loadBuffer` — how a buffer is loaded.
* `Editor.exists_of_writeBuffer`, `Editor.left_writeBuffer` — how a buffer is written.
-/

namespace WorkspaceEditing

namespace Editor

variable {path : Path} {id : BufferId} {e : Editor} {b : Buffer} {disk : Disk}
  {w w' : World Editor}

/-! ## Loading -/

/-- Reading a file changes nothing. -/
theorem left_readFile (path : Path) (w : World Editor) : left (readFile path w) = w := by
  unfold readFile
  cases w.disk.readText? path with
  | ok contents => rfl
  | error cause => cases cause <;> rfl

theorem loadBuffer_of_find (h : w.host.findBuffer? path = some id) :
    loadBuffer path w = .ok id w := by
  have hsee : HostAction.see (·.findBuffer? path) w = .ok (w.host.findBuffer? path) w := rfl
  unfold loadBuffer
  rw [bind_of_ok hsee, h]
  rfl

/-- A buffer that is not open is read, and inserted with the text that is read. -/
theorem loadBuffer_of_fresh (h : w.host.findBuffer? path = none) :
    loadBuffer path w = (readFile path >>= fun text => modifyGet fun w : World Editor =>
      ((w.host.insertBuffer path text).1,
        { w with host := (w.host.insertBuffer path text).2 })) w := by
  have hsee : HostAction.see (·.findBuffer? path) w = .ok (w.host.findBuffer? path) w := rfl
  unfold loadBuffer
  rw [bind_of_ok hsee, h]

/-- A buffer that is open is taken as it is; another one is opened with the text of its file. -/
theorem cases_of_loadBuffer (h : loadBuffer path w = .ok id w') :
    (w.host.findBuffer? path = some id ∧ w' = w) ∨
      w.host.findBuffer? path = none ∧ id = ⟨w.host.issued + 1⟩ ∧
        ∃ text, readFile path w = .ok text w ∧
          w' = { w with host := (w.host.insertBuffer path text).2 } := by
  cases hfind : w.host.findBuffer? path with
  | some found =>
    rw [loadBuffer_of_find hfind] at h
    cases h
    exact .inl ⟨rfl, rfl⟩
  | none =>
    rw [loadBuffer_of_fresh hfind] at h
    obtain ⟨text, between, hread, hinsert⟩ := exists_of_bind_ok h
    have hleft := left_readFile path w
    rw [hread] at hleft
    obtain rfl : between = w := hleft
    cases hinsert
    exact .inr ⟨rfl, rfl, text, hread, rfl⟩

/-- Loading a buffer changes nothing, or opens it because its path is not open. -/
theorem left_loadBuffer (path : Path) (w : World Editor) :
    left (loadBuffer path w) = w ∨ w.host.findBuffer? path = none ∧ ∃ text,
      left (loadBuffer path w) = { w with host := (w.host.insertBuffer path text).2 } := by
  cases hfind : w.host.findBuffer? path with
  | some id =>
    rw [loadBuffer_of_find hfind]
    exact .inl rfl
  | none =>
    have hleft := left_readFile path w
    rw [loadBuffer_of_fresh hfind]
    cases hread : readFile path w with
    | ok text between =>
      rw [hread] at hleft
      obtain rfl : between = w := hleft
      rw [bind_of_ok hread]
      exact .inr ⟨rfl, text, rfl⟩
    | error cause between =>
      rw [hread] at hleft
      rw [bind_of_error hread]
      exact .inl hleft

/-- A buffer that cannot be loaded is not opened. -/
theorem error_of_loadBuffer {cause : HostError} (h : loadBuffer path w = .error cause w') :
    w' = w := by
  cases hfind : w.host.findBuffer? path with
  | some id =>
    rw [loadBuffer_of_find hfind] at h
    cases h
  | none =>
    have hleft := left_readFile path w
    rw [loadBuffer_of_fresh hfind] at h
    cases hread : readFile path w with
    | ok text between =>
      rw [bind_of_ok hread] at h
      cases h
    | error failure between =>
      rw [bind_of_error hread] at h
      rw [hread] at hleft
      cases h
      exact hleft

/-! ## Writing -/

/-- Writing a buffer leaves what writing its contents at its path does. -/
theorem left_writeBuffer (id : BufferId) (w : World Editor) :
    left (writeBuffer id w) = w ∨ ∃ b : Buffer, left (writeBuffer id w) =
      { w with disk := left (DiskAction.write b.path b.contents.toBytes w.disk) } := by
  have hleft := HostAction.left_look (·.buffer id) w
  unfold writeBuffer
  cases hlook : HostAction.look (·.buffer id) w with
  | ok b between =>
    rw [hlook] at hleft
    obtain rfl : between = w := hleft
    rw [bind_of_ok hlook]
    exact .inr ⟨b, HostAction.left_onDisk _ _ _⟩
  | error cause between =>
    rw [hlook] at hleft
    rw [bind_of_error hlook]
    exact .inl hleft

theorem exists_of_writeBuffer (hb : e.buffer? b.id = some b)
    (h : writeBuffer b.id ⟨e, disk⟩ = .ok () w') :
    ∃ disk', DiskAction.write b.path b.contents.toBytes disk = .ok () disk' ∧ w' = ⟨e, disk'⟩ := by
  have hlook : HostAction.look (·.buffer b.id) ⟨e, disk⟩ = .ok b ⟨e, disk⟩ :=
    HostAction.look_ok (by rw [buffer, hb])
  unfold writeBuffer at h
  rw [bind_of_ok hlook] at h
  unfold HostAction.onDisk at h
  cases hwrite : DiskAction.write b.path b.contents.toBytes disk with
  | ok value disk' =>
    simp only [hwrite] at h
    cases h
    exact ⟨disk', rfl, rfl⟩
  | error cause disk' =>
    simp only [hwrite] at h
    cases h

end Editor

end WorkspaceEditing
