import WorkspaceEditing.Apply.Files
import WorkspaceEditing.Proofs.Disk.Effect
import WorkspaceEditing.Proofs.Disk.Walk

/-!
# What operations on files do to a tree without links

In a plain tree an operation on files changes what stands at the names of its path, or nothing at
all. What is written, made or taken away leaves the tree plain, and every file that does not lie at
or beneath a path that is taken away is still a file afterwards, whether the operation succeeds or
fails.

## Main definitions

* `Disk.Spares` — the files at certain keys are still files.
* `Disk.Extends` — nothing is taken away or changed.

## Main results

* `DiskAction.commits_write`, `DiskAction.commits_rename` — writing and renaming.
* `DiskAction.spares_remove` — what is taken away lies at the path or beneath it.
* `DiskAction.extends_createParents` — making directories only adds them.
-/

namespace WorkspaceEditing

variable {d : Disk} {p : Path}

namespace DiskAction

/-! ## Looking -/

/-- A file that stands at the names of a path is read, unless its path cannot be walked for another
cause than that something is missing. -/
theorem cases_of_readText? (h : d.IsPlain) (hp : p.IsDirect) {contents : Text}
    (hget : d.get? p.names = some (.file contents.toBytes)) :
    d.readText? p = .ok contents ∨ ∃ cause, cause ≠ .notFound ∧ d.readText? p = .error cause := by
  unfold Disk.readText?
  cases hstatus : d.status p with
  | error cause =>
    refine .inr ⟨cause, ?_, rfl⟩
    rintro rfl
    have hbytes : p.bytes ≠ [] := by
      intro hnil
      rw [Path.names_eq, hnil] at hget
      simp [Path.isTrivial] at hget
    obtain ⟨missing, ⟨rest, hrest⟩, hnone⟩ := h.exists_missing hp hbytes hstatus
    by_cases hnil : rest = []
    · rw [← hrest, hnil, List.append_nil, hnone] at hget
      cases hget
    · rw [h.get?_of_append hnil (by simp [hrest, hget])] at hnone
      cases hnone
  | ok found =>
    obtain ⟨hkey, hfound⟩ := h.status_ok hp hstatus
    obtain ⟨key, entry⟩ := found
    obtain rfl : key = p.names := hkey
    obtain rfl : Entry.file contents.toBytes = entry := Option.some.inj (hget.symm.trans hfound)
    left
    simp only [bind, Except.bind, Text.ofBytes?_toBytes]

/-! ## Single entries -/

/-- A file is written in a directory, in place of another file or of none, at the names of a path
that never goes up. -/
theorem commits_write (h : d.IsPlain) (contents : ByteArray) :
    Commits (fun _ d' => ∃ key, key ≠ [] ∧ (p.IsDirect → p.names = key) ∧
      d.get? key.dropLast = some .dir ∧ d.get? key ≠ some .dir ∧ d' = d.set key (.file contents))
      (write p contents) d := by
  refine (commits_write_spot contents).mono ?_
  rintro _ d' ⟨spot, name, hlocate, hlast, -, -, hkey, rfl⟩
  refine ⟨_, by simp, fun hp => (h.locate_name hp hlocate hlast).1, ?_, hkey, rfl⟩
  rw [List.dropLast_concat]
  exact (h.locate_ok hlocate).1

/-- An entry is made in a directory, where nothing stands. -/
theorem commits_createEntry (h : d.IsPlain) (entry : Entry) :
    Commits (fun _ d' => ∃ key, key ≠ [] ∧ d.get? key.dropLast = some .dir ∧ d.get? key = none ∧
      d' = d.set key entry) (createEntry p entry) d := by
  refine (commits_createEntry_spot entry).mono ?_
  rintro _ d' ⟨dir, name, slash, hlocate, hfree, rfl⟩
  refine ⟨dir ++ [name], by simp, ?_, hfree, rfl⟩
  rw [List.dropLast_concat]
  exact (h.locate_ok hlocate).1

/-- A file is taken away at the names of its path. -/
theorem commits_removeFile (h : d.IsPlain) (hp : p.IsDirect) :
    Commits (fun _ d' => d.get? p.names ≠ some .dir ∧ d' = d.remove p.names) (removeFile p) d := by
  refine commits_removeFile_spot.mono ?_
  rintro _ d' ⟨dir, name, slash, hlocate, hdir, rfl⟩
  rw [(h.locate_name hp hlocate rfl).1]
  exact ⟨hdir, rfl⟩

/-- An empty directory is taken away at the names of its path. -/
theorem commits_removeDir (h : d.IsPlain) (hp : p.IsDirect) :
    Commits (fun _ d' => d.hasBeneath p.names = false ∧ d' = d.remove p.names) (removeDir p) d := by
  refine commits_removeDir_spot.mono ?_
  rintro _ d' ⟨dir, name, slash, hlocate, hempty, rfl⟩
  rw [(h.locate_name hp hlocate rfl).1]
  exact ⟨hempty, rfl⟩

/-- The keys of a renaming are the names of its paths, and what moves from the one to the other finds
nothing beneath it there. -/
theorem movable_of_moves (h : d.IsPlain) {source target : Path} (hsource : source.IsDirect)
    (htarget : target.IsDirect) (r : d.Renaming source target) :
    r.oldKey = source.names ∧ r.newKey = target.names ∧
      (r.Moves → d.Movable source.names target.names) := by
  obtain ⟨hold, -⟩ := h.locate_name hsource r.locate_old r.last_old
  obtain ⟨hnew, hdir⟩ := h.locate_name htarget r.locate_new r.last_new
  have holdKey : r.oldKey = source.names := hold.symm
  have hnewKey : r.newKey = target.names := hnew.symm
  refine ⟨holdKey, hnewKey, fun hmoves => ?_⟩
  rw [← holdKey, ← hnewKey]
  constructor
  case source_ne => simp [Disk.Renaming.oldKey]
  case target_ne => simp [Disk.Renaming.newKey]
  case apart =>
    rw [Disk.Renaming.newKey, List.prefix_concat_iff, not_or]
    exact ⟨hmoves.ne, hmoves.oldKey_not_prefix⟩
  case apart' =>
    rw [Disk.Renaming.oldKey, List.prefix_concat_iff, not_or]
    exact ⟨hmoves.ne.symm, hmoves.newKey_not_prefix⟩
  case parent =>
    rw [Disk.Renaming.newKey, List.dropLast_concat]
    exact hdir
  case beneath =>
    intro rest hrest
    rcases hmoves.place with hnone | ⟨-, -, hempty⟩ | ⟨-, hfile⟩
    · exact h.get?_append (by simp [hnone]) hrest
    · exact Disk.get?_of_hasBeneath hempty hrest
    · exact h.get?_append hfile hrest

/-- What is renamed is moved from the names of the one path to those of the other, unless they are
the same. -/
theorem commits_rename (h : d.IsPlain) {source target : Path} (hsource : source.IsDirect)
    (htarget : target.IsDirect) :
    Commits (fun _ d' => source.names = target.names ∧ d' = d ∨
      d.Movable source.names target.names ∧ d' = d.move source.names target.names)
      (rename source target) d := by
  refine commits_rename_spot.mono ?_
  rintro _ d' ⟨r, hcases⟩
  obtain ⟨hold, hnew, hmovable⟩ := movable_of_moves h hsource htarget r
  rw [hold, hnew] at hcases
  exact hcases.imp_right fun ⟨hmoves, hmoved⟩ => ⟨hmovable hmoves, hmoved⟩

end DiskAction

/-! ## What stays -/

namespace Disk

/-- A plain tree stays plain, and the files at some of its keys stay files. -/
def Spares (spared : Key → Prop) (d d' : Disk) : Prop :=
  d.IsPlain → d'.IsPlain ∧ ∀ key, spared key → d.IsFile key → d'.IsFile key

/-- A plain tree stays plain, and what stands in it stays. -/
def Extends (d d' : Disk) : Prop :=
  d.IsPlain → d'.IsPlain ∧ ∀ key entry, d.get? key = some entry → d'.get? key = some entry

variable {spared : Key → Prop}

instance : IsPreorder Disk (Spares spared) where
  refl d h := ⟨h, fun key _ hfile => hfile⟩
  trans d d' d'' h h' hplain := by
    obtain ⟨hplain', hfiles⟩ := h hplain
    obtain ⟨hplain'', hfiles'⟩ := h' hplain'
    exact ⟨hplain'', fun key hkey hfile => hfiles' key hkey (hfiles key hkey hfile)⟩

instance : IsPreorder Disk Extends where
  refl d h := ⟨h, fun key entry hget => hget⟩
  trans d d' d'' h h' hplain := by
    obtain ⟨hplain', hstays⟩ := h hplain
    obtain ⟨hplain'', hstays'⟩ := h' hplain'
    exact ⟨hplain'', fun key entry hget => hstays' key entry (hstays key entry hget)⟩

theorem Extends.spares {d d' : Disk} (h : Extends d d') : Spares spared d d' := by
  intro hplain
  obtain ⟨hplain', hstays⟩ := h hplain
  exact ⟨hplain', fun key _ ⟨contents, hget⟩ => ⟨contents, hstays key _ hget⟩⟩

end Disk

namespace DiskAction

open Disk (Spares Extends)

theorem keeps_look {R : Disk → Disk → Prop} [IsPreorder Disk R] {α : Type}
    (read : Disk → Except DiskError α) : Keeps R (look read) := by
  intro d
  unfold look
  cases read d with
  | ok value => exact refl_of R d
  | error cause => exact refl_of R d

/-- What follows a look finds the tree as it was. -/
theorem left_look_bind {α β : Type} {read : Disk → Except DiskError α} {next : α → DiskAction β}
    {P : Disk → Prop} (herror : P d) (hok : ∀ value, read d = .ok value → P (left (next value d))) :
    P (left ((look read >>= next) d)) := by
  apply left_bind
  · intro cause d' hrun
    have hcommits : Commits _ (look read) d := commits_look
    rw [Commits, hrun] at hcommits
    exact hcommits ▸ herror
  · intro value d' hrun
    obtain ⟨rfl, hvalue⟩ := commits_look.of_ok hrun
    exact hok value hvalue

theorem keeps_attempt {R : Disk → Disk → Prop} {action : DiskAction Unit} (h : Keeps R action) :
    Keeps R (attempt action) := by
  intro d
  have hd := h d
  unfold attempt
  cases hrun : action d with
  | ok value d' =>
    rw [hrun] at hd
    exact hd
  | error cause d' =>
    rw [hrun] at hd
    exact hd

/-- Writing leaves all files. -/
theorem spares_write (p : Path) (contents : ByteArray) (spared : Key → Prop) :
    Keeps (Spares spared) (write p contents) := by
  intro d h
  refine ((commits_write h contents).mono ?_).rel_left (R := Spares spared) (refl_of _ d) h
  rintro _ d' ⟨key, hkey, -, hparent, hdir, rfl⟩ -
  refine ⟨h.set hkey hparent (by simp) (.inr hdir), fun other _ ⟨old, hold⟩ => ?_⟩
  unfold Disk.IsFile
  rw [Disk.get?_set hkey]
  split_ifs
  · exact ⟨contents, rfl⟩
  · exact ⟨old, hold⟩

theorem extends_createDir (p : Path) : Keeps Extends (createDir p) := by
  intro d h
  refine ((commits_createEntry h .dir).mono ?_).rel_left (R := Extends) (refl_of _ d) h
  rintro _ d' ⟨key, hkey, hparent, hfree, rfl⟩ -
  refine ⟨h.set hkey hparent (by simp) (.inl rfl), fun other entry hget => ?_⟩
  rw [Disk.get?_set hkey, if_neg]
  · exact hget
  · rintro rfl
    rw [hfree] at hget
    cases hget

/-- What the making of one directory keeps, the making of several keeps. -/
theorem keeps_createDirsFrom {R : Disk → Disk → Prop} [IsPreorder Disk R]
    (h : ∀ p, Keeps R (createDir p)) (paths : List Path) : Keeps R (createDirsFrom paths) := by
  have hsettle (p : Path) (failure : Option DiskError) :
      Keeps R (createDirsFrom.settle p failure) := by
    cases failure with
    | none => exact .pure _
    | some cause => exact Keeps.bind (fun d => refl_of _ d) fun found => .ite (.pure _) (.throw _)
  have hmake (p : Path) := keeps_attempt (h p)
  induction paths with
  | nil => exact .pure _
  | cons p above ih =>
    refine (hmake p).bind fun failure => ?_
    split
    · exact .pure _
    · exact ih.bind fun _ => (hmake p).bind (hsettle p)
    · exact hsettle p _

theorem keeps_createParents {R : Disk → Disk → Prop} [IsPreorder Disk R]
    (h : ∀ p, Keeps R (createDir p)) (p : Path) : Keeps R (Applier.createParents p) := by
  unfold Applier.createParents
  split
  · exact keeps_createDirsFrom h _
  · exact .pure _

/-- Making the directories above a path leaves what is there. -/
theorem extends_createParents (p : Path) : Keeps Extends (Applier.createParents p) :=
  keeps_createParents extends_createDir p

/-! ## Taking away -/

/-- What is taken away lies at the path or beneath it. -/
theorem spares_of_remove (h : d.IsPlain) (hbeneath : ∀ rest ≠ [], d.get? (p.names ++ rest) = none) :
    Spares (fun key => ¬ p.names <+: key) d (d.remove p.names) := by
  refine fun _ => ⟨h.remove hbeneath, fun key hkey ⟨contents, hget⟩ => ⟨contents, ?_⟩⟩
  have hnil : key ≠ [] := by
    rintro rfl
    simp at hget
  rw [Disk.get?_remove hnil, if_neg]
  · exact hget
  · rintro rfl
    exact hkey (List.prefix_refl _)

section

variable (hp : p.IsDirect)
include hp

theorem spares_removeFile : Keeps (Spares fun key => ¬ p.names <+: key) (removeFile p) := by
  intro d h
  refine ((commits_removeFile h hp).mono ?_).rel_left (R := Spares _) (refl_of _ d) h
  rintro _ d' ⟨hdir, rfl⟩
  exact spares_of_remove h fun rest => h.get?_append hdir

theorem spares_removeDir : Keeps (Spares fun key => ¬ p.names <+: key) (removeDir p) := by
  intro d h
  refine ((commits_removeDir h hp).mono ?_).rel_left (R := Spares _) (refl_of _ d) h
  rintro _ d' ⟨hempty, rfl⟩
  exact spares_of_remove h fun rest => Disk.get?_of_hasBeneath hempty

theorem spares_removeTree : Keeps (Spares fun key => ¬ p.names <+: key) (removeTree p) := by
  intro d
  refine left_look_bind (P := Spares _ d) (refl_of _ d) fun found hstatus => ?_
  split
  · exact spares_removeFile hp d
  · exact refl_of _ d
  · next key =>
    intro h
    obtain rfl : key = p.names := (h.linkStatus_ok hp hstatus).1
    refine trans_of (Spares _) (b := d.removeBeneath p.names) (fun _ => ?_) ?_ h
    · refine ⟨h.removeBeneath _, fun key hkey ⟨contents, hget⟩ => ⟨contents, ?_⟩⟩
      rw [Disk.get?_removeBeneath, if_neg]
      · exact hget
      · exact fun hbeneath => hkey (Disk.isBeneath_iff.1 hbeneath).1
    · refine Keeps.bind (keeps_attempt (spares_removeDir hp)) (fun failure => ?_)
        (d.removeBeneath p.names)
      split
      · exact .pure _
      · exact .pure _
      · exact .throw _

/-- Whatever is taken away at a path that never goes up, the files elsewhere are spared. -/
theorem spares_remove (recursive : Bool) :
    Keeps (Spares fun key => ¬ p.names <+: key) (remove p recursive) := by
  refine (keeps_look _).bind fun found => ?_
  split
  · exact .ite (spares_removeTree hp) (spares_removeDir hp)
  · exact spares_removeFile hp

end

end DiskAction

end WorkspaceEditing
