import WorkspaceEditing.Proofs.Disk.Respelled

/-!
# One file in any tree

A file is read and written where its path leads, and renaming takes it to where the new path leads,
with the bytes that it has. Links may lead anywhere. Only if the file comes to stand in the place of
a link that the new path itself leads through, the new path leads nowhere afterwards: then a file is
in its way.

## Main definitions

* `Spot.IsFor` — a walk has ended where a file can stand.
* `Disk.MoreDirs` — a tree with more directories.

## Main results

* `Disk.exists_spot_of_readText?`, `DiskAction.write_ok` — where a file is read, it can be written.
* `DiskAction.keeps_moreDirs` — making directories only makes directories.
* `DiskAction.exists_of_rename` — what has become of a file that is renamed.
-/

namespace WorkspaceEditing

/-- Bytes that are read as a text are those of the text. -/
theorem Text.toBytes_of_ofBytes? {bytes : ByteArray} {t : Text} (h : Text.ofBytes? bytes = some t) :
    t.toBytes = bytes := by
  obtain ⟨chars, hchars, rfl⟩ := Option.map_eq_some_iff.1 h
  have hget : bytes.utf8Decode?.get (by simp [hchars]) = chars := by simp [hchars]
  rw [toBytes, String.toByteArray_ofList, ← hget, ByteArray.utf8Encode_get_utf8Decode?]

variable {d d' : Disk} {p : Path} {f f' : Following}
  {jump jump' : Key → List UInt8 → List Name → Bool → Except DiskError Spot}
  {links : Nat} {dir key source target : Key} {steps : List Name} {slash : Bool} {spot : Spot}
  {contents : ByteArray}

/-- The walk has come to a name that a file may have at a key: it is short enough, and no slash is
behind it. -/
structure Spot.IsFor (spot : Spot) (key : Key) : Prop where
  exists_name : ∃ name : Name, spot.last = .name name ∧ name.length ≤ maxNameLength ∧
    key = spot.dir ++ [name]
  slash : spot.slash = false

theorem Spot.IsFor.ne_nil (h : spot.IsFor key) : key ≠ [] := by
  obtain ⟨name, -, -, rfl⟩ := h.exists_name
  simp

theorem Spot.IsFor.eq (h : spot.IsFor key) {key' : Key} (h' : spot.IsFor key') : key' = key := by
  obtain ⟨name, hlast, -, rfl⟩ := h.exists_name
  obtain ⟨name', hlast', -, rfl⟩ := h'.exists_name
  obtain rfl : name' = name := LastStep.name.inj (hlast'.symm.trans hlast)
  rfl

namespace Disk

/-! ## Finding a file -/

/-- A file is found at the end of a walk if it stands there under a name for files. -/
theorem entryAt_eq_file_iff :
    d.entryAt spot = .ok (key, .file contents) ↔
      spot.IsFor key ∧ d.get? key = some (.file contents) := by
  constructor
  · intro hfound
    unfold entryAt at hfound
    cases hlast : spot.last with
    | name name =>
      simp only [hlast] at hfound
      split at hfound
      · cases hfound
      · next hlength =>
        split at hfound
        · cases hfound
        · cases hfound
        · next entry _ hget =>
          split at hfound
          · cases hfound
          · next hslash =>
            cases hfound
            exact ⟨⟨⟨name, hlast, Nat.not_lt.1 hlength, rfl⟩, by simpa using hslash⟩, hget⟩
    | _ =>
      simp only [hlast] at hfound
      cases hfound
  · rintro ⟨⟨⟨name, hlast, hlength, rfl⟩, hslash⟩, hget⟩
    unfold entryAt
    simp only [hlast, hget, hslash, if_neg (Nat.not_lt.2 hlength)]
    rfl

theorem endsFree_of_file (h : spot.IsFor key) (hfile : d.get? key = some (.file contents)) :
    d.EndsFree spot := by
  obtain ⟨name, hlast, -, rfl⟩ := h.exists_name
  exact endsFree_of_name hlast (by simp [hfile])

/-- A file that stands at a path is not a link, so that links at the end do not matter. -/
theorem exists_spot_of_linkStatus (h : d.linkStatus p = .ok (key, .file contents)) :
    ∃ spot, d.locate .never p = .ok spot ∧ spot.IsFor key ∧
      d.get? key = some (.file contents) := by
  unfold linkStatus at h
  cases hlocate : d.locate .atSlash p with
  | error cause =>
    rw [hlocate] at h
    cases h
  | ok spot =>
    rw [hlocate] at h
    obtain ⟨hspot, hget⟩ := entryAt_eq_file_iff.1 h
    exact ⟨spot, (locate_of_not_slash hlocate hspot.slash .never rfl).2, hspot, hget⟩

theorem linkStatus_of_locate (hlocate : d.locate .never p = .ok spot) (hspot : spot.IsFor key)
    (hfile : d.get? key = some (.file contents)) : d.linkStatus p = .ok (key, .file contents) := by
  have hsame : d.locate .atSlash p = d.locate .never p := by
    refine locate_following (fun _ hfollows => nomatch hfollows) fun spot' hspot' => ?_
    obtain rfl : spot' = spot := Except.ok.inj (hspot'.symm.trans hlocate)
    exact endsFree_of_file hspot hfile
  rw [linkStatus, hsame, hlocate]
  exact entryAt_eq_file_iff.2 ⟨hspot, hfile⟩

/-- A file is read where it could be written, and its bytes are those of the text. -/
theorem exists_spot_of_readText? {t : Text} (h : d.readText? p = .ok t) :
    ∃ spot key, d.locate .withoutSlash p = .ok spot ∧ spot.IsFor key ∧
      d.get? key = some (.file t.toBytes) := by
  unfold readText? status at h
  cases hlocate : d.locate .always p with
  | error cause =>
    rw [hlocate] at h
    cases h
  | ok spot =>
    rw [hlocate] at h
    cases hentry : d.entryAt spot with
    | error cause =>
      simp only [bind, Except.bind, hentry] at h
      cases h
    | ok found =>
      obtain ⟨key, entry⟩ := found
      simp only [bind, Except.bind, hentry] at h
      cases entry with
      | file contents =>
        obtain ⟨hspot, hget⟩ := entryAt_eq_file_iff.1 hentry
        have ht : Text.ofBytes? contents = some t := by
          dsimp only at h
          split at h
          · next text htext => rw [htext, Except.ok.inj h]
          · cases h
        refine ⟨spot, key, (locate_of_not_slash hlocate hspot.slash .withoutSlash rfl).2, hspot, ?_⟩
        rw [Text.toBytes_of_ofBytes? ht, hget]
      | _ => cases h

end Disk

namespace DiskAction

open Disk

/-- Where a path leads to a name for files, and no directory is there, a file is written. -/
theorem write_ok (hlocate : d.locate .withoutSlash p = .ok spot) (hspot : spot.IsFor key)
    (hdir : d.get? key ≠ some .dir) (contents : ByteArray) :
    write p contents d = .ok () (d.set key (.file contents)) := by
  obtain ⟨⟨name, hlast, hlength, rfl⟩, hslash⟩ := hspot
  have hlook : look (·.locate .withoutSlash p) d = .ok spot d := by simp only [look, hlocate]
  have hcheck : checkName name d = .ok () d := by
    rw [checkName, if_neg (Nat.not_lt.2 hlength)]
    rfl
  have hget : (get : DiskAction Disk) d = .ok d d := rfl
  unfold write
  rw [bind_of_ok hlook]
  simp only [hlast, hslash, Bool.false_eq_true, if_false]
  rw [bind_of_ok hcheck, bind_of_ok hget]
  cases hentry : d.get? (spot.dir ++ [name]) with
  | none => rfl
  | some entry =>
    cases entry with
    | dir => exact absurd hentry hdir
    | _ => rfl

/-- What is written where a path leads to no directory. -/
theorem exists_of_write (h : write p contents d = .ok () d') :
    ∃ spot key, d.locate .withoutSlash p = .ok spot ∧ spot.IsFor key ∧ d.get? key ≠ some .dir ∧
      d' = d.set key (.file contents) := by
  obtain ⟨spot, name, hlocate, hlast, hlength, hslash, hdir, hset⟩ :=
    (commits_write_spot contents).of_ok h
  exact ⟨spot, _, hlocate, ⟨⟨name, hlast, hlength, rfl⟩, hslash⟩, hdir, hset⟩

/-- A path leads to a file in one tree, and in another to the same place or to nothing. What is
written there at the path or beneath it is written at the path itself, in one spelling or another,
and the path leads there afterwards. -/
theorem exists_of_write_under {d₀ : Disk} {q : Path} (hlocate₀ : d₀.locate .never p = .ok spot)
    (hspot : spot.IsFor key)
    (hway : d.locate .never p = .error .notFound ∨ d.locate .never p = .ok spot)
    (hentry : d.get? key = none ∨ d.IsFile key) (hunder : p.names <+: q.names)
    (h : write q contents d = .ok () d') :
    q.names = p.names ∧ d' = d.set key (.file contents) ∧ d'.locate .never p = .ok spot := by
  obtain ⟨rest, hrest⟩ := hunder
  obtain ⟨name, hlast, -, hkey⟩ := hspot.exists_name
  have hblocks : d.Blocks (d.locate .never p) := by
    intro spot' hspot'
    rcases hway with hmissing | hsame
    · cases hmissing.symm.trans hspot'
    · obtain rfl : spot' = spot := Except.ok.inj (hspot'.symm.trans hsame)
      exact ⟨name, hlast, hkey ▸ hentry⟩
  obtain ⟨spot', key', hlocate, hspot', hdir, rfl⟩ := exists_of_write h
  obtain ⟨name', hlast', -⟩ := hspot'.exists_name
  obtain ⟨rfl, hsame⟩ := locate_of_names hlocate₀ hlast hspot.slash hblocks hrest.symm hlocate
    hlast' hspot'.slash
  obtain rfl : spot' = spot := by
    rcases hway with hmissing | hway
    · cases hmissing.symm.trans hsame
    · exact Except.ok.inj (hsame.symm.trans hway)
  obtain rfl : key' = key := hspot.eq hspot'
  refine ⟨by rw [← hrest, List.append_nil], rfl, ?_⟩
  subst hkey
  exact (locate_set hsame hlast hdir (hblocks.endsFree hsame) contents).1

end DiskAction

/-! ## Directories that are made -/

/-- The second tree has the entries of the first, and directories where nothing stood. -/
def Disk.MoreDirs (d d' : Disk) : Prop :=
  ∀ key, d'.get? key = d.get? key ∨ d.get? key = none ∧ d'.get? key = some .dir

instance : IsPreorder Disk Disk.MoreDirs where
  refl _ _ := .inl rfl
  trans d d' d'' h h' key := by
    rcases h key with heq | ⟨hnone, hdir⟩ <;> rcases h' key with heq' | ⟨hnone', hdir'⟩
    · exact .inl (heq'.trans heq)
    · exact .inr ⟨heq ▸ hnone', hdir'⟩
    · exact .inr ⟨hnone, heq'.trans hdir⟩
    · exact .inr ⟨hnone, hdir'⟩

namespace Disk.MoreDirs

variable (h : MoreDirs d d')
include h

theorem get?_of_some {entry : Entry} (hget : d.get? key = some entry) :
    d'.get? key = some entry := by
  rcases h key with heq | ⟨hnone, -⟩
  · exact heq.trans hget
  · cases hnone.symm.trans hget

theorem get?_of_link {link : List UInt8} (hget : d'.get? key = some (.link link)) :
    d.get? key = some (.link link) := by
  rcases h key with heq | ⟨-, hdir⟩
  · exact heq.symm.trans hget
  · cases hdir.symm.trans hget

/-- A path still leads to a file. -/
theorem locate (hlocate : d.locate .never p = .ok spot) (hspot : spot.IsFor key)
    (hfile : d.get? key = some (.file contents)) : d'.locate .never p = .ok spot := by
  have hend := endsFree_of_file hspot (h.get?_of_some hfile)
  refine locate_of_ok (fun key hpassed => ?_) hend hlocate
  rcases hpassed with hdir | ⟨link, hlink⟩
  · rw [hdir, h.get?_of_some hdir]
  · rw [hlink, h.get?_of_some hlink]

end Disk.MoreDirs

namespace DiskAction

open Disk

/-- A directory is made where nothing stands. -/
theorem keeps_moreDirs (p : Path) : Keeps MoreDirs (createDir p) := by
  intro d
  have hcommits : Commits (fun _ d' => MoreDirs d d') (createEntry p .dir) d := by
    refine (commits_createEntry_spot .dir).mono ?_
    rintro _ d' ⟨dir, name, slash, -, hfree, rfl⟩ key
    rw [get?_set (by simp)]
    split_ifs with hkey
    · exact .inr ⟨hkey ▸ hfree, rfl⟩
    · exact .inl rfl
  exact hcommits.rel_left (refl_of MoreDirs d)

/-! ## Renaming -/

/-- A file is renamed to a name for files, in place of no directory. -/
theorem commits_rename_file {oldPath newPath : Path} (hold : d.locate .never oldPath = .ok spot)
    (hspot : spot.IsFor key) (hfile : d.get? key = some (.file contents)) :
    Commits (fun _ d' => ∃ spot' key', d.locate .never newPath = .ok spot' ∧ spot'.IsFor key' ∧
      (key = key' ∧ d' = d ∨
        key ≠ key' ∧ d.get? key' ≠ some .dir ∧ d' = d.move key key'))
      (rename oldPath newPath) d := by
  refine commits_rename_spot.mono ?_
  rintro _ d' ⟨r, hcases⟩
  obtain rfl : r.old = spot := Except.ok.inj (r.locate_old.symm.trans hold)
  obtain ⟨name, hlast, -, rfl⟩ := hspot.exists_name
  obtain rfl : r.oldName = name := LastStep.name.inj (r.last_old.symm.trans hlast)
  have hentry : r.entry ≠ .dir := by
    have hget := r.get?_old
    rw [hfile] at hget
    simp [← Option.some.inj hget]
  have hplace : r.new.IsFor r.newKey :=
    ⟨⟨r.newName, r.last_new, r.length_le, rfl⟩, (r.slash_of_ne hentry).2⟩
  refine ⟨r.new, r.newKey, r.locate_new, hplace, ?_⟩
  exact hcases.imp_right fun ⟨hmoves, hmoved⟩ => ⟨hmoves.ne, hmoves.get?_ne_dir hentry, hmoved⟩

end DiskAction

namespace Disk

theorem get?_move_target (hsource : source ≠ []) (htarget : target ≠ []) (hne : source ≠ target) :
    (d.move source target).get? target = d.get? source := by
  apply get?_move_of_rebase hsource htarget
  intro e _
  constructor
  · rintro ⟨hother, hrebase⟩
    by_cases hleads : source <+: e.1
    · obtain ⟨rest, hrest⟩ := hleads
      rw [← hrest, rebase_append] at hrebase
      obtain rfl : rest = [] := by simpa using hrebase
      rw [← hrest, List.append_nil]
    · rw [rebase_of_apart hleads] at hrebase
      exact absurd hrebase hother
  · intro heq
    refine ⟨fun htarget => hne (heq.symm.trans htarget), ?_⟩
    simpa [heq] using rebase_append []

section

variable (hsource : d.IsFile source) (htarget : d.get? target ≠ some .dir)
include hsource htarget

/-- When a file is moved, no other kind of entry in a directory changes, but for what stood at the
target. -/
theorem get?_move_next {name : Name} (hdirs : ∀ base, base <+: dir → d.get? base = some .dir)
    (hother : ∀ contents, d.get? (dir ++ [name]) ≠ some (.file contents))
    (ht : dir ++ [name] ≠ target) :
    (d.move source target).get? (dir ++ [name]) = d.get? (dir ++ [name]) := by
  obtain ⟨contents, hfile⟩ := hsource
  apply get?_move_of_apart
  · intro hleads
    rcases List.prefix_concat_iff.1 hleads with heq | hleads
    · exact hother contents (heq ▸ hfile)
    · cases (hdirs source hleads).symm.trans hfile
  · intro hleads
    rcases List.prefix_concat_iff.1 hleads with heq | hleads
    · exact ht heq.symm
    · exact htarget (hdirs target hleads)

variable (hne : source ≠ target)
include hne

/-- A walk to the place of a file that is moved ends there, unless a link stood there that the walk
itself has followed. -/
theorem walkNames_move
    (hjump : ∀ dir target' rest slash, (∀ base, base <+: dir → d.get? base = some .dir) →
      jump dir target' rest slash = .ok spot → jump' dir target' rest slash = .ok spot ∨
        (∃ link, d.get? target = some (.link link)) ∧
          jump' dir target' rest slash = .error .notDirectory)
    (hdirs : ∀ base, base <+: dir → d.get? base = some .dir) (hspot : spot.IsFor target)
    (hwalk : d.walkNames .never jump dir steps slash = .ok spot) :
    (d.move source target).walkNames .never jump' dir steps slash = .ok spot ∨
      (∃ link, d.get? target = some (.link link)) ∧
        (d.move source target).walkNames .never jump' dir steps slash = .error .notDirectory := by
  have hmoved : ∃ contents, (d.move source target).get? target = some (.file contents) := by
    obtain ⟨contents, hfile⟩ := hsource
    refine ⟨contents, ?_⟩
    rw [get?_move_target _ hspot.ne_nil hne, hfile]
    rintro rfl
    simp at hfile
  have hname : ∃ name, spot.last = .name name ∧ target = spot.dir ++ [name] := by
    obtain ⟨name, hlast, -, htarget⟩ := hspot.exists_name
    exact ⟨name, hlast, htarget⟩
  generalize hnever : Following.never = f at hwalk ⊢
  have hend (dir : Key) (name : Name) (slash : Bool) (hhere : name ≠ Path.here)
      (habove : name ≠ Path.above) (heq : (⟨dir, .name name, slash⟩ : Spot) = spot) :
      (d.move source target).walkNames f jump' dir [name] slash = .ok spot := by
    subst heq
    obtain ⟨_, hlast, rfl⟩ := hname
    cases hlast
    obtain ⟨contents, hmoved⟩ := hmoved
    exact walkNames_name hhere habove (by simp [hmoved])
  fun_induction walkNames d f jump dir steps slash with
  | case1 | case2 | case3 =>
    cases hwalk
    obtain ⟨_, hlast, -⟩ := hname
    cases hlast
  | case4 dir name slash _ _ _ _ hfollows =>
    subst hnever
    cases hfollows
  | case5 dir name slash hhere habove =>
    exact .inl (hend dir name slash hhere habove (Except.ok.inj hwalk))
  | case6 dir name slash hhere habove =>
    exact .inl (hend dir name slash hhere habove (Except.ok.inj hwalk))
  | case7 dir rest slash hrest ih =>
    rw [walkNames_here_cons hrest]
    exact ih hdirs hwalk
  | case8 dir rest slash hrest _ ih =>
    rw [walkNames_above_cons hrest]
    exact ih (fun base hbase => hdirs base (hbase.trans (List.dropLast_prefix dir))) hwalk
  | case12 dir name rest slash hrest hhere habove hlength hdir ih =>
    have hsame := get?_move_next hsource htarget hdirs (by simp [hdir])
      (fun heq => htarget (heq ▸ hdir))
    rw [walkNames_next hrest hhere habove hlength, hsame, hdir]
    refine ih (fun base hbase => ?_) hwalk
    rcases List.prefix_concat_iff.1 hbase with rfl | hbase
    · exact hdir
    · exact hdirs base hbase
  | case13 dir name rest slash hrest hhere habove hlength link hlink =>
    rw [walkNames_next hrest hhere habove hlength]
    by_cases heq : dir ++ [name] = target
    · obtain ⟨contents, hmoved⟩ := hmoved
      rw [heq, hmoved]
      exact .inr ⟨⟨link, heq ▸ hlink⟩, rfl⟩
    · rw [get?_move_next hsource htarget hdirs (by simp [hlink]) heq, hlink]
      exact hjump _ _ _ _ hdirs hwalk
  | case9 | case10 | case11 => cases hwalk

theorem walk_move (hdirs : ∀ base, base <+: dir → d.get? base = some .dir)
    (hspot : spot.IsFor target) (hwalk : d.walk .never links dir steps slash = .ok spot) :
    (d.move source target).walk .never links dir steps slash = .ok spot ∨
      (∃ link, d.get? target = some (.link link)) ∧
        (d.move source target).walk .never links dir steps slash = .error .notDirectory := by
  induction links generalizing dir steps slash with
  | zero =>
    rw [walk] at hwalk ⊢
    refine walkNames_move hsource htarget hne (fun _ _ _ _ _ hjump => ?_) hdirs hspot hwalk
    cases hjump
  | succ links ih =>
    rw [walk] at hwalk ⊢
    refine walkNames_move hsource htarget hne (fun dir target' rest slash hdirs hjump => ?_) hdirs
      hspot hwalk
    refine ih ?_ hjump
    split
    · intro base hbase
      rw [List.prefix_nil.1 hbase, get?_nil]
    · exact hdirs

theorem locate_move (hspot : spot.IsFor target) (hlocate : d.locate .never p = .ok spot) :
    (d.move source target).locate .never p = .ok spot ∨
      (∃ link, d.get? target = some (.link link)) ∧
        (d.move source target).locate .never p = .error .notDirectory := by
  have hp := walkable_of_locate hlocate
  rw [locate_eq_walk hp] at hlocate ⊢
  refine walk_move hsource htarget hne (fun base hbase => ?_) hspot hlocate
  rw [List.prefix_nil.1 hbase, get?_nil]

end

end Disk

/-- A file that is renamed is found at the new path, with the bytes that it had, unless it has taken
the place of a link that this path leads through. -/
theorem DiskAction.exists_of_rename {oldPath newPath : Path}
    (hold : d.linkStatus oldPath = .ok (key, .file contents))
    (h : rename oldPath newPath d = .ok () d') :
    ∃ key', d'.get? key' = some (.file contents) ∧
      (d'.linkStatus newPath = .ok (key', .file contents) ∨
        (∃ link, d.get? key' = some (.link link)) ∧
          d'.linkStatus newPath = .error .notDirectory) := by
  obtain ⟨spot, hlocate, hspot, hfile⟩ := Disk.exists_spot_of_linkStatus hold
  obtain ⟨spot', key', hlocate', hspot', hcases⟩ :=
    (commits_rename_file hlocate hspot hfile).of_ok h
  refine ⟨key', ?_⟩
  rcases hcases with ⟨rfl, rfl⟩ | ⟨hne, hdir, rfl⟩
  · exact ⟨hfile, .inl (Disk.linkStatus_of_locate hlocate' hspot' hfile)⟩
  · have hfile' : (d.move key key').get? key' = some (.file contents) := by
      rw [Disk.get?_move_target hspot.ne_nil hspot'.ne_nil hne, hfile]
    refine ⟨hfile', ?_⟩
    rcases Disk.locate_move ⟨contents, hfile⟩ hdir hne hspot' hlocate' with hok | ⟨hlink, herror⟩
    · exact .inl (Disk.linkStatus_of_locate hok hspot' hfile')
    · refine .inr ⟨hlink, ?_⟩
      have hsame : (d.move key key').locate .atSlash newPath =
          (d.move key key').locate .never newPath :=
        Disk.locate_following (fun _ hfollows => nomatch hfollows) fun spot hspot => by
          cases herror.symm.trans hspot
      rw [Disk.linkStatus, hsame, herror]
      rfl

end WorkspaceEditing
