import WorkspaceEditing.Apply.Files
import WorkspaceEditing.Proofs.Disk.Files
import WorkspaceEditing.Proofs.Editor.Calls

/-!
# Files that are written from buffers

Buffers are written one after the other, up to the first that cannot be written. In a tree without
links each of them puts its contents into the file at the names of its path, which may be a new one.
Every file that was there is there afterwards, with the contents of the last buffer of its path that
was written, or as it was.

## Main definitions

* `FileAt.rewritten` — the file after buffers have been written.
* `Editor.written` — the buffers that are written, up to the first that cannot be.

## Main results

* `Applier.holds_writeBuffers` — what writing buffers, as far as it comes, does to files.
-/

namespace WorkspaceEditing

/-- The file after a buffer has been written: if it stands at the names of the buffer's path, it has
the buffer's contents. -/
def FileAt.overwritten (f : FileAt) (b : Buffer) : FileAt :=
  if b.path.names = f.key then { f with contents := b.contents.toBytes } else f

/-- The file after buffers have been written, one after the other. -/
def FileAt.rewritten (f : FileAt) (bs : List Buffer) : FileAt := bs.foldl FileAt.overwritten f

@[simp] theorem FileAt.key_overwritten (f : FileAt) (b : Buffer) : (f.overwritten b).key = f.key := by
  unfold overwritten
  split <;> rfl

@[simp] theorem FileAt.key_rewritten (f : FileAt) (bs : List Buffer) :
    (f.rewritten bs).key = f.key := by
  induction bs generalizing f with
  | nil => rfl
  | cons b rest ih => exact (ih (f.overwritten b)).trans (f.key_overwritten b)

namespace Editor

variable {w : World Editor}

/-- The buffers that are written, up to the first that cannot be. -/
def written : List (BufferId × Path) → World Editor → List Buffer
  | [], _ => []
  | (id, _) :: rest, w =>
    match w.host.buffer? id, writeBuffer id w with
    | some b, .ok _ w' => b :: written rest w'
    | _, _ => []

/-- In a tree without links, a buffer that cannot be written changes nothing, and one that is written
puts its contents into one file. -/
theorem cases_of_writeBuffer (h : w.disk.IsPlain) (id : BufferId) :
    (∃ cause, writeBuffer id w = .error cause w) ∨
      ∃ (b : Buffer) (key : Key), w.host.buffer? id = some b ∧ key ≠ [] ∧
        (b.path.IsDirect → b.path.names = key) ∧ w.disk.get? key.dropLast = some .dir ∧
        w.disk.get? key ≠ some .dir ∧
        writeBuffer id w =
          .ok () { w with disk := w.disk.set key (.file b.contents.toBytes) } := by
  unfold writeBuffer
  cases hfind : w.host.buffer? id with
  | none =>
    have hlook : HostAction.look (·.buffer id) w = .error (.unknownBuffer id) w := by
      simp [HostAction.look, buffer, hfind]
    exact .inl ⟨_, bind_of_error hlook _⟩
  | some b =>
    have hlook : HostAction.look (·.buffer id) w = .ok b w :=
      HostAction.look_ok (by rw [buffer, hfind])
    have hcommits := DiskAction.commits_write (p := b.path) h b.contents.toBytes
    rw [bind_of_ok hlook, HostAction.onDisk]
    cases hwrite : DiskAction.write b.path b.contents.toBytes w.disk with
    | ok value disk =>
      obtain ⟨key, hkey, hnames, hparent, hdir, rfl⟩ := hcommits.of_ok hwrite
      exact .inr ⟨b, key, rfl, hkey, hnames, hparent, hdir, rfl⟩
    | error cause disk =>
      rw [Commits, hwrite] at hcommits
      obtain rfl : disk = w.disk := hcommits
      exact .inl ⟨_, rfl⟩

end Editor

/-- The files of a tree after one of them, or a new one, is written for a buffer. -/
theorem Disk.Holds.set {d : Disk} {f : FileAt} (h : d.Holds f) {b : Buffer}
    (hnil : b.path.names ≠ []) :
    (d.set b.path.names (.file b.contents.toBytes)).Holds (f.overwritten b) := by
  unfold FileAt.overwritten
  split_ifs with hsame
  · rw [Holds, Disk.get?_set hnil, if_pos hsame.symm]
  · exact h.set_of_ne hnil (Ne.symm hsame) _

/-- Writing buffers leaves the editor as it is, and all files: those of the buffers that are written
have their contents. -/
theorem Applier.holds_writeBuffers (config : Config) (e : Encoding) {w : World Editor}
    (hplain : w.disk.IsPlain) (hdirect : ∀ b ∈ w.host.buffers, b.path.IsDirect)
    (bs : List (BufferId × Path)) :
    let w' := left (writeBuffers ⟨Editor.asHost, config, e⟩ bs w)
    w'.host = w.host ∧ w'.disk.IsPlain ∧
      ∀ f, w.disk.Holds f → w'.disk.Holds (f.rewritten (Editor.written bs w)) := by
  induction bs generalizing w with
  | nil => exact ⟨rfl, hplain, fun f => id⟩
  | cons first rest ih =>
    rw [writeBuffers, Editor.written]
    rcases Editor.cases_of_writeBuffer hplain first.1 with
      ⟨cause, hrun⟩ | ⟨b, key, hfind, hkey, hnames, hparent, hdir, hrun⟩
    · have hnone : Editor.asHost.writeBuffer first.1 w = .error cause w := hrun
      rw [bind_of_error hnone, hrun]
      refine ⟨rfl, hplain, fun f hf => ?_⟩
      cases w.host.buffer? first.1 <;> exact hf
    · obtain rfl := hnames (hdirect b (List.mem_of_find?_eq_some hfind))
      have hdone : Editor.asHost.writeBuffer first.1 w = .ok () _ := hrun
      rw [bind_of_ok hdone, hrun, hfind]
      obtain ⟨hhost, hplain', hholds⟩ := ih
        (w := { w with disk := w.disk.set b.path.names (.file b.contents.toBytes) })
        (hplain.set hkey hparent (by simp) (.inr hdir)) hdirect
      exact ⟨hhost, hplain', fun f hf => hholds _ (hf.set hkey)⟩

end WorkspaceEditing
