import WorkspaceEditing.Proofs.Disk.Presence

/-!
# Files with their contents

Where files are, and what they hold, after a file has been created or an entry renamed in a tree
without links. Creating a file where nothing is seen leaves all that are there; renaming takes those
at the old path and beneath it along, and puts none in the place of another one that is not seen.

## Main definitions

* `FileAt`, `Disk.Holds` — a file with its key and its contents, and a tree that has it.
* `FileAt.moved` — the file after its key, or the key of a directory above it, has been exchanged.

## Main results

* `DiskAction.holds_create` — what creating a file does to the files that are there.
* `DiskAction.holds_rename` — what renaming does to them.
-/

namespace WorkspaceEditing

/-- A file: the key at which it stands, and its contents. -/
structure FileAt where
  key : Key
  contents : ByteArray
  deriving DecidableEq

/-- The file stands in the tree. -/
def Disk.Holds (d : Disk) (f : FileAt) : Prop := d.get? f.key = some (.file f.contents)

instance (d : Disk) (f : FileAt) : Decidable (d.Holds f) :=
  inferInstanceAs (Decidable (d.get? f.key = some (.file f.contents)))

theorem Disk.Holds.set_of_ne {d : Disk} {f : FileAt} (h : d.Holds f) {key : Key} (hkey : key ≠ [])
    (hne : f.key ≠ key) (entry : Entry) : (d.set key entry).Holds f := by
  unfold Holds
  rwa [get?_set hkey, if_neg hne]

/-- The file with the beginning `source` of its key exchanged for `target`, if its key begins so. -/
def FileAt.moved (f : FileAt) (source target : Key) : FileAt :=
  { f with key := Disk.rebase source target f.key }

theorem FileAt.moved_self (f : FileAt) (source : Key) : f.moved source source = f := by
  have hkey : Disk.rebase source source f.key = f.key := by
    by_cases hleads : source <+: f.key
    · obtain ⟨rest, hrest⟩ := hleads
      rw [← hrest, Disk.rebase_append]
    · exact Disk.rebase_of_apart hleads
  rw [moved, hkey]

namespace Disk

variable {d : Disk} {source target : Key} {f g : FileAt}

namespace Movable

variable (h : d.Movable source target)
include h

/-- A file that is not at the target is not beneath it either. -/
theorem not_prefix_of_holds (hf : d.Holds f) (hne : f.key ≠ target) : ¬ target <+: f.key := by
  rintro ⟨rest, hrest⟩
  have hnil : rest ≠ [] := by
    rintro rfl
    exact hne (by simpa using hrest.symm)
  have hnone := h.beneath rest hnil
  rw [hrest] at hnone
  cases hnone.symm.trans hf

theorem holds_move (hf : d.Holds f) (hne : f.key ≠ target) :
    (d.move source target).Holds (f.moved source target) := by
  unfold Holds FileAt.moved
  by_cases hsource : source <+: f.key
  · obtain ⟨rest, hrest⟩ := hsource
    rw [← hrest, rebase_append, h.get?_move_append, hrest]
    exact hf
  · rw [rebase_of_apart hsource,
      get?_move_of_apart hsource (h.not_prefix_of_holds hf hne)]
    exact hf

/-- Files that are not at the target are moved apart. -/
theorem key_eq_of_moved (hf : d.Holds f) (hg : d.Holds g) (hnef : f.key ≠ target)
    (hneg : g.key ≠ target) (hkey : (f.moved source target).key = (g.moved source target).key) :
    f.key = g.key := by
  have hf' := h.not_prefix_of_holds hf hnef
  have hg' := h.not_prefix_of_holds hg hneg
  simp only [FileAt.moved] at hkey
  by_cases hsource : source <+: f.key <;> by_cases hsource' : source <+: g.key
  · obtain ⟨rest, hrest⟩ := hsource
    obtain ⟨rest', hrest'⟩ := hsource'
    rw [← hrest, ← hrest', rebase_append, rebase_append, List.append_cancel_left_eq] at hkey
    rw [← hrest, ← hrest', hkey]
  · obtain ⟨rest, hrest⟩ := hsource
    rw [← hrest, rebase_append, rebase_of_apart hsource'] at hkey
    exact absurd ⟨rest, hkey⟩ hg'
  · obtain ⟨rest', hrest'⟩ := hsource'
    rw [← hrest', rebase_append, rebase_of_apart hsource] at hkey
    exact absurd ⟨rest', hkey.symm⟩ hf'
  · rwa [rebase_of_apart hsource, rebase_of_apart hsource'] at hkey

end Movable

end Disk

namespace DiskAction

variable {d : Disk}

/-- What follows the making of directories runs in a tree that has them and all files, unless one of
them cannot be made. -/
theorem cases_of_createParents (hplain : d.IsPlain) (p : Path) (next : DiskAction Unit) :
    let action : DiskAction Unit := do
      Applier.createParents p
      next
    ∃ made : Disk, made.IsPlain ∧ (∀ f, d.Holds f → made.Holds f) ∧
      ((∃ cause, action d = .error cause made) ∨ action d = next made) := by
  have hextends := extends_createParents p d
  cases hmake : Applier.createParents p d with
  | error cause made =>
    obtain ⟨hplain', hkept⟩ : made.IsPlain ∧ _ := (hmake ▸ hextends) hplain
    exact ⟨made, hplain', fun f => hkept f.key _, .inl ⟨cause, bind_of_error hmake _⟩⟩
  | ok _ made =>
    obtain ⟨hplain', hkept⟩ : made.IsPlain ∧ _ := (hmake ▸ hextends) hplain
    exact ⟨made, hplain', fun f => hkept f.key _, .inr (bind_of_ok hmake _)⟩

/-- A file is written where nothing is seen, and the directories above it are made: all files that
are there stay. -/
theorem holds_create (hplain : d.IsPlain) {p : Path} (hp : p.IsDirect)
    (hpresent : d.isPresent p = false) (contents : ByteArray) :
    let d' := left ((do Applier.createParents p; write p contents : DiskAction Unit) d)
    d'.IsPlain ∧ ∀ f, d.Holds f → d'.Holds f := by
  obtain ⟨made, hplain', hkept, ⟨cause, hrun⟩ | hrun⟩ :=
    cases_of_createParents hplain p (write p contents)
  · rw [hrun]
    exact ⟨hplain', hkept⟩
  rw [hrun]
  have hcommits := commits_write (p := p) hplain' contents
  cases hwrite : write p contents made with
  | error cause disk =>
    rw [Commits, hwrite] at hcommits
    obtain rfl : disk = made := hcommits
    exact ⟨hplain', hkept⟩
  | ok _ disk =>
    obtain ⟨key, hkey, hnames, hparent, hdir, rfl⟩ := hcommits.of_ok hwrite
    obtain rfl := hnames hp
    refine ⟨hplain'.set hkey hparent (by simp) (.inr hdir), fun f hf => ?_⟩
    -- a file in the way would have been seen
    have hne : f.key ≠ p.names := by
      intro heq
      have hseen := isPresent_of_write hplain hplain' hp hwrite ⟨f.contents, heq ▸ hf⟩
      rw [hpresent] at hseen
      cases hseen
    exact (hkept f hf).set_of_ne hkey hne _

variable {oldPath newPath : Path} (hold : oldPath.IsDirect) (hnew : newPath.IsDirect)
include hold hnew

/-- Making the directories above a path and renaming to it adds directories, and then fails or
renames. -/
theorem cases_of_createParents_rename (hplain : d.IsPlain) :
    let action : DiskAction Unit := do
      Applier.createParents newPath
      rename oldPath newPath
    ∃ made : Disk, made.IsPlain ∧ (∀ f, d.Holds f → made.Holds f) ∧
      ((∃ cause, action d = .error cause made) ∨
        ∃ renamed, rename oldPath newPath made = .ok () renamed ∧ action d = .ok () renamed) := by
  obtain ⟨made, hplain', hkept, herror | hrun⟩ :=
    cases_of_createParents hplain newPath (rename oldPath newPath)
  · exact ⟨made, hplain', hkept, .inl herror⟩
  refine ⟨made, hplain', hkept, ?_⟩
  rw [hrun]
  have hcommits := commits_rename hplain' hold hnew
  cases hrename : rename oldPath newPath made with
  | ok _ renamed => exact .inr ⟨renamed, rfl, rfl⟩
  | error cause disk =>
    rw [Commits, hrename] at hcommits
    exact .inl ⟨cause, hcommits ▸ rfl⟩

/-- A renaming takes along each file that it does not put another in the place of, and no two of
them to one key. -/
theorem holds_rename {renamed : Disk} (hplain : d.IsPlain)
    (hrun : rename oldPath newPath d = .ok () renamed) :
    renamed.IsPlain ∧ ∀ f, d.Holds f → (oldPath.names ≠ newPath.names → f.key ≠ newPath.names) →
      renamed.Holds (f.moved oldPath.names newPath.names) ∧
      ∀ g, d.Holds g → (oldPath.names ≠ newPath.names → g.key ≠ newPath.names) →
        (f.moved oldPath.names newPath.names).key = (g.moved oldPath.names newPath.names).key →
        f.key = g.key := by
  rcases (commits_rename hplain hold hnew).of_ok hrun with ⟨hsame, rfl⟩ | ⟨hmovable, rfl⟩
  · refine ⟨hplain, fun f hf _ => ⟨?_, fun g _ _ hkey => ?_⟩⟩
    · rwa [hsame, FileAt.moved_self]
    · rwa [hsame, FileAt.moved_self, FileAt.moved_self] at hkey
  · have hne : oldPath.names ≠ newPath.names := fun heq => hmovable.apart (heq ▸ List.prefix_rfl)
    exact ⟨hmovable.isPlain_move hplain, fun f hf hfree => ⟨hmovable.holds_move hf (hfree hne),
      fun g hg hfree' => hmovable.key_eq_of_moved hf hg (hfree hne) (hfree' hne)⟩⟩

end DiskAction

end WorkspaceEditing
