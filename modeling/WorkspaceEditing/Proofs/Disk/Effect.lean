import WorkspaceEditing.Disk.Operations
import WorkspaceEditing.Proofs.Host.Action

/-!
# What one operation on files does

An operation on a single entry looks where its path leads, and then changes what stands there or
fails without a change. This is said once for each operation, in any tree, with what it has found
out on the way. What operations do to trees of a kind follows from where paths lead in them.

## Main definitions

* `Disk.Renaming` — where the two paths of a renaming lead, and what is to be renamed.
* `Disk.Renaming.Moves` — the entry can take its new place.

## Main results

* `DiskAction.commits_write_spot`, `DiskAction.commits_createEntry_spot`,
  `DiskAction.commits_removeFile_spot`, `DiskAction.commits_removeDir_spot`,
  `DiskAction.commits_rename_spot` — the operations on single entries.
-/

namespace WorkspaceEditing

variable {d : Disk} {p source target : Path}

namespace Disk

/-- Two paths lead to names, and an entry stands at the first. A file or a link is renamed between
paths that do not end in a slash. -/
structure Renaming (d : Disk) (source target : Path) where
  old : Spot
  new : Spot
  oldName : Name
  newName : Name
  entry : Entry
  locate_old : d.locate .never source = .ok old
  locate_new : d.locate .never target = .ok new
  last_old : old.last = .name oldName
  last_new : new.last = .name newName
  length_le : newName.length ≤ maxNameLength
  get?_old : d.get? (old.dir ++ [oldName]) = some entry
  slash_of_ne : entry ≠ .dir → old.slash = false ∧ new.slash = false

namespace Renaming

/-- The key from which the entry is taken. -/
def oldKey (r : d.Renaming source target) : Key := r.old.dir ++ [r.oldName]

/-- The key under which it comes to stand. -/
def newKey (r : d.Renaming source target) : Key := r.new.dir ++ [r.newName]

/-- The keys are apart, neither leading to the directory of the other, and what stands at the new one
gives way: an empty directory to a directory, and anything else to a file or a link. -/
structure Moves (r : d.Renaming source target) : Prop where
  ne : r.oldKey ≠ r.newKey
  oldKey_not_prefix : ¬ r.oldKey <+: r.new.dir
  newKey_not_prefix : ¬ r.newKey <+: r.old.dir
  place : d.get? r.newKey = none ∨
    (r.entry = .dir ∧ d.get? r.newKey = some .dir ∧ d.hasBeneath r.newKey = false) ∨
      (r.entry ≠ .dir ∧ d.get? r.newKey ≠ some .dir)

/-- A file or a link takes the place of no directory. -/
theorem Moves.get?_ne_dir {r : d.Renaming source target} (h : r.Moves) (hentry : r.entry ≠ .dir) :
    d.get? r.newKey ≠ some .dir := by
  rcases h.place with hnone | ⟨hdir, -⟩ | ⟨-, hfile⟩
  · simp [hnone]
  · exact absurd hdir hentry
  · exact hfile

end Renaming

end Disk

namespace DiskAction

/-! ## Looking -/

theorem commits_look {α : Type} {read : Disk → Except DiskError α} :
    Commits (fun value d' => d' = d ∧ read d = .ok value) (look read) d := by
  unfold Commits look
  cases hread : read d with
  | ok value => exact ⟨rfl, rfl⟩
  | error cause => rfl

theorem commits_get : Commits (fun found d' => d' = d ∧ d = found) (get : DiskAction Disk) d :=
  .get ⟨rfl, rfl⟩

theorem commits_checkName (name : Name) :
    Commits (fun _ d' => d' = d ∧ name.length ≤ maxNameLength) (checkName name) d :=
  .ite (fun _ => .throw _) fun hlength => .pure ⟨rfl, Nat.not_lt.1 hlength⟩

theorem commits_slot (special : LastStep → DiskError) :
    Commits (fun place d' => d' = d ∧ d.locate .never p = .ok ⟨place.1, .name place.2.1, place.2.2⟩)
      (slot p special) d := by
  refine commits_look.bind fun spot hspot => ?_
  obtain ⟨dir, last, slash⟩ := spot
  cases last with
  | name name => exact .pure ⟨rfl, hspot⟩
  | _ => exact .throw _

/-! ## Single entries -/

/-- What is written is written under a name that is short enough, at a path that asks for no
directory and leads to none. -/
theorem commits_write_spot (contents : ByteArray) :
    Commits (fun _ d' => ∃ spot name, d.locate .withoutSlash p = .ok spot ∧
      spot.last = .name name ∧ name.length ≤ maxNameLength ∧ spot.slash = false ∧
      d.get? (spot.dir ++ [name]) ≠ some .dir ∧ d' = d.set (spot.dir ++ [name]) (.file contents))
      (write p contents) d := by
  refine commits_look.bind fun spot hspot => ?_
  cases hlast : spot.last with
  | name name =>
    refine .ite (fun _ => .throw _) fun hslash => ?_
    refine (commits_checkName name).bind fun _ hlength => commits_get.bind ?_
    rintro _ rfl
    split
    · exact .throw _
    · next hdir =>
      exact ⟨spot, name, hspot, hlast, hlength, by simpa using hslash, hdir, rfl⟩
  | _ => exact .throw _

/-- An entry is made where nothing stands. -/
theorem commits_createEntry_spot (entry : Entry) :
    Commits (fun _ d' => ∃ dir name slash, d.locate .never p = .ok ⟨dir, .name name, slash⟩ ∧
      d.get? (dir ++ [name]) = none ∧ d' = d.set (dir ++ [name]) entry)
      (createEntry p entry) d := by
  refine (commits_slot _).bind ?_
  rintro ⟨dir, name, slash⟩ hlocate
  refine (commits_checkName name).bind fun _ _ => commits_get.bind ?_
  rintro _ rfl
  refine .ite (fun _ => .throw _) fun hfree => .ite (fun _ => .throw _) fun _ => ?_
  exact ⟨dir, name, slash, hlocate, by simpa using hfree, rfl⟩

/-- What is taken away as a file is no directory, -/
theorem commits_removeFile_spot :
    Commits (fun _ d' => ∃ dir name slash, d.locate .never p = .ok ⟨dir, .name name, slash⟩ ∧
      d.get? (dir ++ [name]) ≠ some .dir ∧ d' = d.remove (dir ++ [name])) (removeFile p) d := by
  refine (commits_slot _).bind ?_
  rintro ⟨dir, name, slash⟩ hlocate
  refine (commits_checkName name).bind fun _ _ => commits_get.bind ?_
  rintro _ rfl
  split
  · exact .throw _
  · exact .throw _
  · next entry hentry hget =>
    exact .ite (fun _ => .throw _) fun _ => ⟨dir, name, slash, hlocate, by grind, rfl⟩

/-- and what is taken away as a directory is empty. -/
theorem commits_removeDir_spot :
    Commits (fun _ d' => ∃ dir name slash, d.locate .never p = .ok ⟨dir, .name name, slash⟩ ∧
      d.hasBeneath (dir ++ [name]) = false ∧ d' = d.remove (dir ++ [name])) (removeDir p) d := by
  refine (commits_slot _).bind ?_
  rintro ⟨dir, name, slash⟩ hlocate
  refine (commits_checkName name).bind fun _ _ => commits_get.bind ?_
  rintro _ rfl
  split
  · exact .throw _
  · refine commits_get.bind ?_
    rintro _ rfl
    exact .ite (fun _ => .throw _) fun hempty =>
      ⟨dir, name, slash, hlocate, by simpa using hempty, rfl⟩
  · exact .throw _

/-- What is renamed is moved to its new place, unless it is there already. -/
theorem commits_rename_spot :
    Commits (fun _ d' => ∃ r : d.Renaming source target,
      r.oldKey = r.newKey ∧ d' = d ∨ r.Moves ∧ d' = d.move r.oldKey r.newKey)
      (rename source target) d := by
  refine .ite (fun _ => .throw _) fun _ => ?_
  refine commits_look.bind fun old hold => commits_look.bind fun new hnew => ?_
  split
  · next oldName newName holdName hnewName =>
    refine commits_get.bind ?_
    rintro _ rfl
    refine (commits_checkName _).bind fun _ _ => ?_
    split
    · exact .throw _
    · next entry hentry =>
      refine (commits_checkName _).bind fun _ hlength => .ite (fun _ => .throw _) fun hslash => ?_
      let r : d.Renaming source target :=
        { old, new, oldName, newName, entry, locate_old := hold, locate_new := hnew,
          last_old := holdName, last_new := hnewName, length_le := hlength, get?_old := hentry,
          slash_of_ne := fun hne => by simpa [hne] using hslash }
      refine .ite (fun _ => .throw _) fun hbeneath => .ite (fun _ => .throw _) fun habove => ?_
      rw [List.isPrefixOf_iff_prefix] at hbeneath habove
      refine .ite (fun heq => .pure ⟨r, .inl ⟨heq, rfl⟩⟩) fun hne => ?_
      have hmove (hplace : d.get? (new.dir ++ [newName]) = none ∨
          (entry = .dir ∧ d.get? (new.dir ++ [newName]) = some .dir ∧
            d.hasBeneath (new.dir ++ [newName]) = false) ∨
          (entry ≠ .dir ∧ d.get? (new.dir ++ [newName]) ≠ some .dir)) :
          Commits (fun _ d' => ∃ r : d.Renaming source target,
            r.oldKey = r.newKey ∧ d' = d ∨ r.Moves ∧ d' = d.move r.oldKey r.newKey)
          (change (·.move r.oldKey r.newKey)) d :=
        ⟨r, .inr ⟨⟨hne, hbeneath, habove, hplace⟩, rfl⟩⟩
      split
      · next hnone => exact hmove (.inl hnone)
      · next hdir =>
        exact .ite (fun _ => .throw _) fun hempty =>
          hmove (.inr (.inl ⟨rfl, hdir, by simpa using hempty⟩))
      · exact .throw _
      · exact .throw _
      · next other hother _ hfile hget =>
        exact hmove (.inr (.inr ⟨hfile, by simpa [hget] using hother⟩))
  · exact .throw _

end DiskAction

end WorkspaceEditing
