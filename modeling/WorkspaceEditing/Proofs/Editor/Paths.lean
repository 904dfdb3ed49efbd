import WorkspaceEditing.Proofs.Apply.Keeps
import WorkspaceEditing.Proofs.Editor.Sound

/-!
# Calls that leave files and paths alone

Most calls of the editor neither read nor write files. They leave the file tree as it is, and the
buffers that are open afterwards have paths that were open before; and so do text edits, which are
applied by such calls.

## Main definitions

* `World.SamePaths` — the file tree is the same, and no path has come in.

## Main results

* `Editor.keeps_samePaths` — the calls that have nothing to do with files.
-/

namespace WorkspaceEditing

/-- The file tree is as it was, and the buffers have paths that were open before. -/
def World.SamePaths (w w' : World Editor) : Prop :=
  w'.disk = w.disk ∧ ∀ b' ∈ w'.host.buffers, ∃ b ∈ w.host.buffers, b'.path = b.path

instance : IsPreorder (World Editor) World.SamePaths where
  refl w := ⟨rfl, fun b hb => ⟨b, hb, rfl⟩⟩
  trans w w' w'' h h' := by
    refine ⟨h'.1.trans h.1, fun b'' hb'' => ?_⟩
    obtain ⟨b', hb', hpath'⟩ := h'.2 b'' hb''
    obtain ⟨b, hb, hpath⟩ := h.2 b' hb'
    exact ⟨b, hb, hpath'.trans hpath⟩

namespace Editor

variable {e e' : Editor} {id : BufferId} {b b' : Buffer}

/-- A new state of an open buffer has the path of the old one. -/
theorem paths_of_putBuffer (hb : e.buffer? id = some b) (hpath : b'.path = b.path) :
    ∀ c ∈ (e.putBuffer b').buffers, ∃ b ∈ e.buffers, c.path = b.path := by
  intro c hc
  obtain ⟨other, hother, rfl⟩ := List.mem_map.1 hc
  split_ifs
  · exact ⟨b, List.mem_of_find?_eq_some hb, hpath⟩
  · exact ⟨other, hother, rfl⟩

theorem paths_of_retouched (h : Retouched id e e') :
    ∀ c ∈ e'.buffers, ∃ b ∈ e.buffers, c.path = b.path := by
  obtain ⟨b, b', hb, rfl, -, hpath, -⟩ := h
  exact paths_of_putBuffer hb hpath

theorem samePaths_look {α : Type} (read : Editor → Except HostError α) :
    Keeps World.SamePaths (HostAction.look read) := by
  intro w
  rw [HostAction.left_look]
  exact refl_of World.SamePaths w

theorem samePaths_update {f : Editor → Except HostError Editor}
    (h : ∀ e e', f e = .ok e' → ∀ c ∈ e'.buffers, ∃ b ∈ e.buffers, c.path = b.path) :
    Keeps World.SamePaths (HostAction.update f) := by
  intro w
  unfold HostAction.update
  cases hf : f w.host with
  | ok e' => exact ⟨rfl, h _ _ hf⟩
  | error cause => exact refl_of World.SamePaths w

/-- The calls of the editor that neither read nor write files leave the tree as it is, and bring no
new path. -/
theorem keeps_samePaths : asHost.KeepsInMemory World.SamePaths where
  buffers w := refl_of _ w
  setListed id := samePaths_update fun e e' h => paths_of_retouched (retouched_setListed h)
  line id index := samePaths_look (·.line id index)
  lineCount id := samePaths_look (·.lineCount id)
  setText id r newLines := samePaths_update (f := (·.setText id r newLines)) fun e e' h => by
    obtain ⟨b, changed, hb, hreplace, rfl⟩ := cases_of_setText h
    exact paths_of_putBuffer hb (id_path_of_replace? hreplace).2
  focusedBuffer w := refl_of _ w
  cursor w := refl_of _ w
  setCursor p := samePaths_update (f := (·.setCursor p)) fun e e' h => by
    rcases cases_of_setCursor h with rfl | ⟨win, b, -, -, -, rfl⟩
    · exact fun c hc => ⟨c, hc, rfl⟩
    · exact fun c hc => ⟨c, hc, rfl⟩
  marks id := samePaths_look (·.marks id)
  setMarks id ms := samePaths_update fun e e' h => paths_of_retouched (retouched_setMarks h)
  deleteBuffer id := samePaths_update (f := (·.deleteBuffer id)) fun e e' h => by
    rw [(cases_of_deleteBuffer h).1]
    exact fun c hc => ⟨c, List.mem_of_mem_filter hc, rfl⟩
  windowsShowing _ w := refl_of _ w
  setWindowBuffer win id := samePaths_update (f := (·.setWindowBuffer win id)) fun e e' h => by
    obtain ⟨w, b, -, rfl⟩ := cases_of_setWindowBuffer h
    exact fun c hc => ⟨c, hc, rfl⟩
  fixesEndOfLine id := samePaths_look (·.fixesEndOfLine id)

end Editor

end WorkspaceEditing
