import WorkspaceEditing.Apply.Files
import WorkspaceEditing.Proofs.Disk.Operations
import WorkspaceEditing.Proofs.Editor.Calls

/-!
# Buffers and their files

Writing buffers changes the file tree only. In a tree without links each of them then has a file
with its contents at the names of its path, and no other key is touched; and if the file gets a line
break at its end, then its text is that of the buffer when it is read again.

## Main results

* `Editor.text_of_readFile` — what was written is read again.
* `Applier.host_of_writeBuffers`, `Applier.written_of_writeBuffers` — what writing buffers does.
-/

namespace WorkspaceEditing

variable {e : Editor} {disk : Disk} {b : Buffer} {w' : World Editor}

/-! ## Reading again -/

/-- The text of what is written for a buffer, if a line break is added at the end, is its text. -/
theorem Buffer.textOfContents_contents (h : b.fixesEndOfLine = true) :
    Buffer.textOfContents b.contents = b.text := by
  unfold textOfContents contents
  by_cases hnil : b.text = []
  · simp [hnil]
  · simp [h, hnil]

/-- A file with the contents of a buffer is read as the buffer's text. -/
theorem Editor.text_of_readFile (h : disk.IsPlain) {path : Path} (hp : path.IsDirect)
    (hfixes : b.fixesEndOfLine = true)
    (hget : disk.get? path.names = some (.file b.contents.toBytes)) {text : Text}
    (hread : readFile path ⟨e, disk⟩ = .ok text w') : text = b.text := by
  unfold readFile at hread
  rcases DiskAction.cases_of_readText? h hp hget with heq | ⟨cause, hcause, heq⟩
  · simp only [heq] at hread
    cases hread
    exact Buffer.textOfContents_contents hfixes
  · simp only [heq] at hread
    cases cause with
    | notFound => exact absurd rfl hcause
    | _ => cases hread

/-! ## Writing -/

namespace Applier

variable {config : Config} {encoding : Encoding} {bs : List Buffer}

theorem host_of_writeBuffers (hbs : ∀ b ∈ bs, e.buffer? b.id = some b)
    (h : writeBuffers ⟨Editor.asHost, config, encoding⟩ (bs.map fun b => (b.id, b.path))
      ⟨e, disk⟩ = .ok () w') : w'.host = e := by
  induction bs generalizing disk with
  | nil =>
    cases h
    rfl
  | cons b rest ih =>
    obtain ⟨_, between, hwrite, hrest⟩ := exists_of_bind_ok h
    obtain ⟨disk', -, rfl⟩ := Editor.exists_of_writeBuffer (hbs b List.mem_cons_self) hwrite
    exact ih (fun c hc => hbs c (List.mem_cons_of_mem _ hc)) hrest

/-- In a tree without links, buffers of different paths are all written at the names of their paths,
and nothing else is. -/
theorem written_of_writeBuffers (hplain : disk.IsPlain)
    (hbs : ∀ b ∈ bs, e.buffer? b.id = some b ∧ b.path.IsDirect)
    (hdistinct : bs.Pairwise fun b c => b.path.names ≠ c.path.names)
    (h : writeBuffers ⟨Editor.asHost, config, encoding⟩ (bs.map fun b => (b.id, b.path))
      ⟨e, disk⟩ = .ok () w') :
    w'.disk.IsPlain ∧
      (∀ b ∈ bs, w'.disk.get? b.path.names = some (.file b.contents.toBytes)) ∧
      ∀ key, (∀ b ∈ bs, b.path.names ≠ key) → w'.disk.get? key = disk.get? key := by
  induction bs generalizing disk with
  | nil =>
    cases h
    exact ⟨hplain, by simp, fun key _ => rfl⟩
  | cons b rest ih =>
    obtain ⟨hb, hdirect⟩ := hbs b List.mem_cons_self
    obtain ⟨hdistinctb, hdistinct⟩ := List.pairwise_cons.1 hdistinct
    obtain ⟨_, between, hwrite, hrest⟩ := exists_of_bind_ok h
    obtain ⟨disk', hwritten, rfl⟩ := Editor.exists_of_writeBuffer hb hwrite
    obtain ⟨key, hkey, hnames, hparent, hdir, rfl⟩ :=
      (DiskAction.commits_write hplain b.contents.toBytes).of_ok hwritten
    obtain rfl := hnames hdirect
    obtain ⟨hplain', hfiles, hothers⟩ := ih (hplain.set hkey hparent (by simp) (.inr hdir))
      (fun c hc => hbs c (List.mem_cons_of_mem _ hc)) hdistinct hrest
    refine ⟨hplain', ?_, ?_⟩
    · intro c hc
      rcases List.mem_cons.1 hc with rfl | hc
      · rw [hothers _ fun c hc => (hdistinctb c hc).symm, Disk.get?_set hkey, if_pos rfl]
      · exact hfiles c hc
    · intro other hother
      rw [hothers other fun c hc => hother c (List.mem_cons_of_mem _ hc), Disk.get?_set hkey,
        if_neg (hother b List.mem_cons_self).symm]

end Applier

end WorkspaceEditing
