import WorkspaceEditing.Proofs.Disk.Presence

/-!
# Paths that are walked again

What an operation has done at a path is seen by walking the path again, in the tree that is changed
now, and perhaps with the link at its end followed that was not followed before. Links on the way may
lead anywhere. Still, where an entry has been taken away, the path leads to nothing, and where a file
has been written, the path leads to that file.

## Main definitions

* `Disk.EndsFree` — a walk does not end at a link.
* `Disk.Thinned` — what stands in one tree stands in another as well.
* `Disk.LeadsNowhere` — nothing stands at a path, in whatever way it is walked.

## Main results

* `Disk.locate_following` — a walk that does not end at a link goes the same way if links at the end
  are followed.
* `Disk.Thinned.locate` — in a tree with fewer entries a walk goes the same way or finds nothing.
* `DiskAction.leadsNowhere_of_remove` — nothing is left at a path where something was taken away.
* `DiskAction.readText?_of_write` — what was written to a file is read there.
-/

namespace WorkspaceEditing

variable {d d' : Disk} {p : Path} {f f' : Following}
  {jump jump' : Key → List UInt8 → List Name → Bool → Except DiskError Spot}
  {dir : Key} {steps : List Name} {slash : Bool} {spot : Spot}

namespace Disk

/-- No link stands where a walk has ended. -/
def EndsFree (d : Disk) (spot : Spot) : Prop :=
  ∀ name target, spot.last = .name name → d.get? (spot.dir ++ [name]) ≠ some (.link target)

/-- What stands in the second tree stands in the first as well. -/
def Thinned (d d' : Disk) : Prop := ∀ key, d'.get? key = d.get? key ∨ d'.get? key = none

/-- Nothing stands at a path, in whatever way it is walked. -/
def LeadsNowhere (d : Disk) (p : Path) : Prop :=
  ∀ f, ∃ cause, (d.locate f p >>= d.entryAt) = .error cause

/-! ## Links at the end -/

theorem endsFree_of_name {name : Name} (hlast : spot.last = .name name)
    (h : ∀ target, d.get? (spot.dir ++ [name]) ≠ some (.link target)) : d.EndsFree spot := by
  intro name' target hlast'
  obtain rfl : name' = name := LastStep.name.inj (hlast'.symm.trans hlast)
  exact h target

/-- A walk that does not end at a link goes the same way if more links at the end are followed. -/
theorem walkNames_following (hf : ∀ slash, f.follows slash = true → f'.follows slash = true)
    (hjump : ∀ dir target rest slash,
      (∀ spot, jump dir target rest slash = .ok spot → d.EndsFree spot) →
        jump' dir target rest slash = jump dir target rest slash)
    (hend : ∀ spot, d.walkNames f jump dir steps slash = .ok spot → d.EndsFree spot) :
    d.walkNames f' jump' dir steps slash = d.walkNames f jump dir steps slash := by
  fun_induction walkNames d f jump dir steps slash with
  | case4 dir name slash hhere habove target hlink hfollows =>
    rw [walkNames_last hhere habove, hlink]
    simp only [hf slash hfollows, if_true]
    exact hjump _ _ _ _ hend
  | case5 dir name slash _ _ target hlink _ => exact absurd hlink (hend _ rfl name target rfl)
  | case6 dir name slash hhere habove hlink => exact walkNames_name hhere habove hlink
  | case7 dir rest slash hrest ih =>
    rw [walkNames_here_cons hrest]
    exact ih hend
  | case8 dir rest slash hrest _ ih =>
    rw [walkNames_above_cons hrest]
    exact ih hend
  | case12 dir name rest slash hrest hhere habove hlength hdir ih =>
    rw [walkNames_next hrest hhere habove hlength, hdir]
    exact ih hend
  | case13 dir name rest slash hrest hhere habove hlength target hlink =>
    rw [walkNames_next hrest hhere habove hlength, hlink]
    exact hjump _ _ _ _ hend
  | _ => simp_all [walkNames]

/-- A walk that does not end at a link goes the same way if more links at the end are followed. -/
theorem locate_following (hf : ∀ slash, f.follows slash = true → f'.follows slash = true)
    (hend : ∀ spot, d.locate f p = .ok spot → d.EndsFree spot) :
    d.locate f' p = d.locate f p := by
  refine locate_rel (R := fun r r' => (∀ spot, r = .ok spot → d.EndsFree spot) → r' = r)
    (fun _ _ => rfl) (fun jump jump' hjump dir steps slash => ?_) p hend
  exact walkNames_following hf hjump

/-- A walk that would follow a link at the end does not end at one. -/
theorem endsFree_of_walkNames
    (hjump : ∀ dir target rest slash, jump dir target rest slash = .ok spot → d.EndsFree spot)
    (hfollows : f.follows spot.slash = true) (hwalk : d.walkNames f jump dir steps slash = .ok spot) :
    d.EndsFree spot := by
  fun_induction walkNames d f jump dir steps slash with
  | case4 => exact hjump _ _ _ _ hwalk
  | case5 dir name slash _ _ target _ hnot =>
    cases hwalk
    exact absurd hfollows hnot
  | case6 dir name slash _ _ hlink =>
    cases hwalk
    rintro _ target ⟨⟩
    exact hlink target
  | case7 dir rest slash _ ih => exact ih hwalk
  | case8 dir rest slash _ _ ih => exact ih hwalk
  | case12 dir name rest slash _ _ _ _ _ ih => exact ih hwalk
  | case13 => exact hjump _ _ _ _ hwalk
  | case9 => cases hwalk
  | case10 => cases hwalk
  | case11 => cases hwalk
  | _ =>
    cases hwalk
    rintro _ _ ⟨⟩

theorem endsFree_of_locate (hlocate : d.locate f p = .ok spot)
    (hfollows : f.follows spot.slash = true) : d.EndsFree spot := by
  refine @locate_rel d d f f (fun r _ => r = .ok spot → d.EndsFree spot) (fun _ => nofun)
    (fun jump jump' hjump dir steps slash => ?_) p hlocate
  exact endsFree_of_walkNames hjump hfollows

/-! ## Trees with fewer entries -/

theorem Thinned.refl (d : Disk) : Thinned d d := fun _ => .inl rfl

theorem Thinned.trans {d'' : Disk} (h : Thinned d d') (h' : Thinned d' d'') : Thinned d d'' := by
  intro key
  rcases h' key with heq | hnone
  · rw [heq]
    exact h key
  · exact .inr hnone

theorem thinned_remove (d : Disk) (key : Key) : Thinned d (d.remove key) := by
  intro other
  by_cases hother : other = []
  · simp [hother]
  · rw [get?_remove hother]
    split_ifs
    · exact .inr rfl
    · exact .inl rfl

theorem thinned_removeBeneath (d : Disk) (base : Key) : Thinned d (d.removeBeneath base) := by
  intro other
  rw [get?_removeBeneath]
  split_ifs
  · exact .inr rfl
  · exact .inl rfl

/-- In a tree with fewer entries, a walk finds nothing at its next name, or what was there. -/
theorem Thinned.walkNames_next (hthin : Thinned d d') {following : Following} {name : Name}
    {rest : List Name} (hrest : rest ≠ []) (hhere : name ≠ Path.here) (habove : name ≠ Path.above)
    (hlength : ¬ name.length > maxNameLength) :
    d'.walkNames following jump dir (name :: rest) slash = .error .notFound ∨
      d'.get? (dir ++ [name]) = d.get? (dir ++ [name]) := by
  rcases hthin (dir ++ [name]) with hsame | hnone
  · exact .inr hsame
  · exact .inl (by rw [Disk.walkNames_next hrest hhere habove hlength, hnone])

/-- In a tree with fewer entries, a walk that follows no link at the end goes the same way or finds
nothing. -/
theorem Thinned.walkNames (hthin : Thinned d d')
    (hjump : ∀ dir target rest slash, jump' dir target rest slash = .error .notFound ∨
      jump' dir target rest slash = jump dir target rest slash) :
    d'.walkNames .never jump' dir steps slash = .error .notFound ∨
      d'.walkNames .never jump' dir steps slash = d.walkNames .never jump dir steps slash := by
  generalize hnever : Following.never = f
  fun_induction Disk.walkNames d f jump dir steps slash with
  | case4 dir name slash _ _ target _ hfollows =>
    subst hnever
    cases hfollows
  | case5 dir name slash hhere habove target hlink hnot =>
    refine .inr ?_
    rw [walkNames_last hhere habove]
    split
    · exact if_neg hnot
    · rfl
  | case6 dir name slash hhere habove hlink =>
    refine .inr (walkNames_name hhere habove fun target heq => ?_)
    rcases hthin (dir ++ [name]) with hsame | hnone
    · exact hlink target (hsame.symm.trans heq)
    · cases hnone.symm.trans heq
  | case7 dir rest slash hrest ih =>
    rw [walkNames_here_cons hrest]
    exact ih
  | case8 dir rest slash hrest _ ih =>
    rw [walkNames_above_cons hrest]
    exact ih
  | case10 dir name rest slash hrest hhere habove hlength hnone =>
    rcases hthin.walkNames_next hrest hhere habove hlength with hlost | hsame
    · exact .inl hlost
    · rw [Disk.walkNames_next hrest hhere habove hlength, hsame, hnone]
      exact .inl rfl
  | case11 dir name rest slash hrest hhere habove hlength _ hfile =>
    rcases hthin.walkNames_next hrest hhere habove hlength with hlost | hsame
    · exact .inl hlost
    · rw [Disk.walkNames_next hrest hhere habove hlength, hsame, hfile]
      exact .inr rfl
  | case12 dir name rest slash hrest hhere habove hlength hdir ih =>
    rcases hthin.walkNames_next hrest hhere habove hlength with hlost | hsame
    · exact .inl hlost
    · rw [Disk.walkNames_next hrest hhere habove hlength, hsame, hdir]
      exact ih
  | case13 dir name rest slash hrest hhere habove hlength target hlink =>
    rcases hthin.walkNames_next hrest hhere habove hlength with hlost | hsame
    · exact .inl hlost
    · rw [Disk.walkNames_next hrest hhere habove hlength, hsame, hlink]
      exact hjump _ _ _ _
  | _ => simp_all [Disk.walkNames]

/-- In a tree with fewer entries a path leads to where it has led, or is not found. -/
theorem Thinned.locate (hthin : Thinned d d') (p : Path) :
    d'.locate .never p = .error .notFound ∨ d'.locate .never p = d.locate .never p :=
  locate_rel (R := fun r r' => r' = .error .notFound ∨ r' = r) (fun _ => .inr rfl)
    (fun _ _ hjump _ _ _ => hthin.walkNames hjump) p

/-! ## Trees with another file -/

/-- A walk that comes through goes the same way in every tree that has its directories and links, and
no link where it ends. -/
theorem walkNames_of_ok
    (hkeep : ∀ key, d.get? key = some .dir ∨ (∃ target, d.get? key = some (.link target)) →
      d'.get? key = d.get? key)
    (hjump : ∀ dir target rest slash, jump dir target rest slash = .ok spot →
      jump' dir target rest slash = .ok spot)
    (hend : d'.EndsFree spot) (hwalk : d.walkNames f jump dir steps slash = .ok spot) :
    d'.walkNames f jump' dir steps slash = .ok spot := by
  fun_induction walkNames d f jump dir steps slash with
  | case4 dir name slash hhere habove target hlink hfollows =>
    rw [walkNames_last hhere habove, hkeep _ (.inr ⟨target, hlink⟩), hlink]
    simp only [hfollows, if_true]
    exact hjump _ _ _ _ hwalk
  | case5 dir name slash hhere habove target hlink hnot =>
    cases hwalk
    exact absurd ((hkeep _ (.inr ⟨target, hlink⟩)).trans hlink) (hend name target rfl)
  | case6 dir name slash hhere habove hlink =>
    cases hwalk
    exact walkNames_name hhere habove fun target => hend name target rfl
  | case7 dir rest slash hrest ih =>
    rw [walkNames_here_cons hrest]
    exact ih hwalk
  | case8 dir rest slash hrest _ ih =>
    rw [walkNames_above_cons hrest]
    exact ih hwalk
  | case12 dir name rest slash hrest hhere habove hlength hdir ih =>
    rw [walkNames_next hrest hhere habove hlength, hkeep _ (.inl hdir), hdir]
    exact ih hwalk
  | case13 dir name rest slash hrest hhere habove hlength target hlink =>
    rw [walkNames_next hrest hhere habove hlength, hkeep _ (.inr ⟨target, hlink⟩), hlink]
    exact hjump _ _ _ _ hwalk
  | case9 => cases hwalk
  | case10 => cases hwalk
  | case11 => cases hwalk
  | _ => simp_all [walkNames]

/-- A path goes the same way in every tree that has the directories and links of this one, and no link
where it ends. -/
theorem locate_of_ok
    (hkeep : ∀ key, d.get? key = some .dir ∨ (∃ target, d.get? key = some (.link target)) →
      d'.get? key = d.get? key)
    (hend : d'.EndsFree spot) (hlocate : d.locate f p = .ok spot) : d'.locate f p = .ok spot :=
  locate_rel (R := fun r r' => r = .ok spot → r' = .ok spot) (fun _ => nofun)
    (fun _ _ hjump _ _ _ => walkNames_of_ok hkeep hjump hend) p hlocate

/-- A file that is put where a walk has ended, in place of no directory and no link, does not change
the way of the walk. -/
theorem locate_set {name : Name} (hlocate : d.locate f p = .ok spot) (hlast : spot.last = .name name)
    (hdir : d.get? (spot.dir ++ [name]) ≠ some .dir) (hend : d.EndsFree spot)
    (contents : ByteArray) :
    let d' := d.set (spot.dir ++ [name]) (.file contents)
    d'.locate f p = .ok spot ∧ d'.EndsFree spot := by
  intro d'
  have hget (key : Key) : d'.get? key =
      if key = spot.dir ++ [name] then some (.file contents) else d.get? key :=
    get?_set (by simp)
  have hend' : d'.EndsFree spot := endsFree_of_name hlast (by simp [hget])
  refine ⟨locate_of_ok (fun key hpassed => ?_) hend' hlocate, hend'⟩
  rw [hget, if_neg]
  rintro rfl
  rcases hpassed with hdir' | ⟨target, hlink⟩
  · exact hdir hdir'
  · exact hend name target hlast hlink

/-! ## Nothing at a path -/

theorem leadsNowhere_of_error {cause : DiskError} (h : d.locate .never p = .error cause) :
    d.LeadsNowhere p := by
  intro f
  have hsame : d.locate f p = d.locate .never p :=
    locate_following (fun _ hfollows => nomatch hfollows) fun spot hspot => by
      rw [h] at hspot
      cases hspot
  exact ⟨cause, by rw [hsame, h]; rfl⟩

/-- A path whose last name is not found leads nowhere. -/
theorem leadsNowhere_of_none {name : Name} (h : d.locate .never p = .ok spot)
    (hlast : spot.last = .name name) (hnone : d.get? (spot.dir ++ [name]) = none) :
    d.LeadsNowhere p := by
  intro f
  have hsame : d.locate f p = d.locate .never p := by
    refine locate_following (fun _ hfollows => nomatch hfollows) fun spot' hspot' => ?_
    obtain rfl : spot' = spot := Except.ok.inj (hspot'.symm.trans h)
    exact endsFree_of_name hlast (by simp [hnone])
  rw [hsame, h]
  show ∃ cause, d.entryAt spot = .error cause
  unfold entryAt
  simp only [hlast, hnone]
  split
  · exact ⟨_, rfl⟩
  · exact ⟨_, rfl⟩

/-- Where the entry at the end of a path is taken away, the path leads nowhere. -/
theorem leadsNowhere_remove {name : Name} (h : d.locate .never p = .ok spot)
    (hlast : spot.last = .name name) : (d.remove (spot.dir ++ [name])).LeadsNowhere p := by
  rcases (thinned_remove d (spot.dir ++ [name])).locate p with hmissing | hsame
  · exact leadsNowhere_of_error hmissing
  · exact leadsNowhere_of_none (hsame.trans h) hlast (by rw [get?_remove (by simp), if_pos rfl])

/-- In a tree without links, a path that never goes up and leads nowhere after entries were taken away
has nothing at its names or beneath them, if it has led somewhere before. -/
theorem IsPlain.get?_of_leadsNowhere (h : d.IsPlain) (h' : d'.IsPlain) (hp : p.IsDirect)
    (hthin : Thinned d d') {found : Key × Entry} (hfound : d.linkStatus p = .ok found)
    (hnowhere : d'.LeadsNowhere p) (rest : Key) : d'.get? (p.names ++ rest) = none := by
  by_contra hsome
  obtain ⟨entry, hentry⟩ : ∃ entry, d'.get? p.names = some entry := by
    by_cases hnil : rest = []
    · rw [hnil, List.append_nil] at hsome
      exact Option.ne_none_iff_exists'.1 hsome
    · exact ⟨.dir, h'.get?_of_append hnil (Option.isSome_iff_ne_none.2 hsome)⟩
  have hsame : d'.get? p.names = d.get? p.names := (hthin p.names).resolve_right (by simp [hentry])
  cases hlocate : d.locate .atSlash p with
  | error cause =>
    rw [linkStatus, hlocate] at hfound
    cases hfound
  | ok spot =>
    obtain ⟨hdir, hkey⟩ := h.locate_ok hlocate
    obtain ⟨habove, hkey⟩ := hkey hp
    have hdir' : d'.get? spot.dir = some .dir := by
      cases hlast : spot.last with
      | name name =>
        have hnames := (h.locate_name hp hlocate hlast).1
        exact h'.get?_of_append (List.cons_ne_nil _ _) (by rw [← hnames, hentry]; rfl)
      | here =>
        simp only [Spot.key, hlast] at hkey
        rw [hkey, hsame, ← hkey, hdir]
      | root =>
        simp only [Spot.key, hlast] at hkey
        rw [hkey, hsame, ← hkey, hdir]
      | above => exact absurd hlast habove
    have hentryAt : d'.entryAt spot = d.entryAt spot := by
      unfold entryAt
      cases hlast : spot.last with
      | name name =>
        simp only [Spot.key, hlast] at hkey
        simp only [hkey, hsame]
      | _ => rfl
    obtain ⟨cause, hcause⟩ := hnowhere .atSlash
    rw [h'.locate_transfer h hp hlocate hdir'] at hcause
    rw [linkStatus, hlocate] at hfound
    cases (hentryAt.trans hfound).symm.trans hcause

theorem LeadsNowhere.status (h : d.LeadsNowhere p) : ∃ cause, d.status p = .error cause := h .always

theorem LeadsNowhere.linkStatus (h : d.LeadsNowhere p) : ∃ cause, d.linkStatus p = .error cause :=
  h .atSlash

end Disk

namespace DiskAction

open Disk

/-! ## Taking away -/

/-- A file is taken away at the end of its path. -/
theorem leadsNowhere_of_removeFile (h : removeFile p d = .ok () d') :
    Thinned d d' ∧ d'.LeadsNowhere p := by
  obtain ⟨dir, name, slash, hlocate, -, rfl⟩ := commits_removeFile_spot.of_ok h
  exact ⟨thinned_remove _ _, leadsNowhere_remove hlocate rfl⟩

/-- So is an empty directory. -/
theorem leadsNowhere_of_removeDir (h : removeDir p d = .ok () d') :
    Thinned d d' ∧ d'.LeadsNowhere p := by
  obtain ⟨dir, name, slash, hlocate, -, rfl⟩ := commits_removeDir_spot.of_ok h
  exact ⟨thinned_remove _ _, leadsNowhere_remove hlocate rfl⟩

/-- A directory that is not found is nowhere at its path. -/
theorem leadsNowhere_of_missing (h : removeDir p d = .error .notFound d') :
    d' = d ∧ d'.LeadsNowhere p := by
  have hsame : Commits _ (removeDir p) d := commits_removeDir_spot
  rw [Commits, h] at hsame
  subst hsame
  refine ⟨rfl, ?_⟩
  rcases cases_of_bind_error h with hslot | ⟨⟨dir, name, slash⟩, d₁, hslot, hnamed⟩
  · -- the path cannot be walked, since for no other cause the last name is not found
    rcases cases_of_bind_error hslot with hlook | ⟨⟨dir, last, slash⟩, d₁, -, hspecial⟩
    · unfold look at hlook
      cases hlocate : d'.locate .never p with
      | ok spot =>
        simp only [hlocate] at hlook
        cases hlook
      | error cause => exact leadsNowhere_of_error hlocate
    · cases last <;> cases hspecial
  · obtain ⟨rfl, hlocate⟩ := (commits_slot _).of_ok hslot
    rcases cases_of_bind_error hnamed with hcheck | ⟨_, d₂, hcheck, hfound⟩
    · unfold checkName at hcheck
      split_ifs at hcheck
      · cases hcheck
      · cases hcheck
    · obtain ⟨rfl, -⟩ := (commits_checkName name).of_ok hcheck
      rcases cases_of_bind_error hfound with hget | ⟨_, d₃, hget, hmatch⟩
      · cases hget
      · cases hget
        cases hentry : d₂.get? (dir ++ [name]) with
        | none => exact leadsNowhere_of_none hlocate rfl hentry
        | some entry =>
          simp only [hentry] at hmatch
          cases entry with
          | dir =>
            rcases cases_of_bind_error hmatch with hget | ⟨_, d₃, -, hbeneath⟩
            · cases hget
            · split_ifs at hbeneath
              · cases hbeneath
              · cases hbeneath
          | _ => cases hmatch

theorem cases_of_attempt {action : DiskAction Unit} {failure : Option DiskError}
    (h : attempt action d = .ok failure d') :
    (failure = none ∧ action d = .ok () d') ∨
      ∃ cause, failure = some cause ∧ action d = .error cause d' := by
  unfold attempt at h
  cases hrun : action d with
  | ok _ _ =>
    rw [hrun] at h
    cases h
    exact .inl ⟨rfl, rfl⟩
  | error cause _ =>
    rw [hrun] at h
    cases h
    exact .inr ⟨cause, rfl, rfl⟩

/-- A directory with all that it holds is taken away, and if what it holds was on the way of the path,
the path is not found afterwards. -/
theorem leadsNowhere_of_removeTree (h : removeTree p d = .ok () d') :
    Thinned d d' ∧ d'.LeadsNowhere p := by
  obtain ⟨⟨key, entry⟩, d₁, hlook, hfound⟩ := exists_of_bind_ok h
  obtain ⟨rfl, -⟩ := commits_look.of_ok hlook
  cases entry with
  | link target => exact leadsNowhere_of_removeFile hfound
  | file contents => cases hfound
  | dir =>
    obtain ⟨_, d₂, hbeneath, hfound⟩ := exists_of_bind_ok hfound
    obtain ⟨failure, d₃, hattempt, hfound⟩ := exists_of_bind_ok hfound
    cases hbeneath
    have hthin : Thinned d₁ (d₁.removeBeneath key) := thinned_removeBeneath d₁ key
    rcases cases_of_attempt hattempt with ⟨rfl, hremove⟩ | ⟨cause, rfl, hremove⟩
    · cases hfound
      obtain ⟨hthin', hnowhere⟩ := leadsNowhere_of_removeDir hremove
      exact ⟨hthin.trans hthin', hnowhere⟩
    · cases cause with
      | notFound =>
        cases hfound
        obtain ⟨rfl, hnowhere⟩ := leadsNowhere_of_missing hremove
        exact ⟨hthin, hnowhere⟩
      | _ => cases hfound

/-- Nothing is left at a path where something was taken away, wherever links lead. -/
theorem leadsNowhere_of_remove {recursive : Bool} (h : remove p recursive d = .ok () d') :
    (∃ found, d.linkStatus p = .ok found) ∧ Thinned d d' ∧ d'.LeadsNowhere p := by
  obtain ⟨⟨key, entry⟩, d₁, hlook, hfound⟩ := exists_of_bind_ok h
  obtain ⟨rfl, hstatus⟩ := commits_look.of_ok hlook
  refine ⟨⟨_, hstatus⟩, ?_⟩
  cases entry with
  | dir =>
    dsimp only at hfound
    split_ifs at hfound
    · exact leadsNowhere_of_removeTree hfound
    · exact leadsNowhere_of_removeDir hfound
  | _ => exact leadsNowhere_of_removeFile hfound

/-- In a tree without links, nothing is left at the names of the path either, nor beneath them. -/
theorem get?_of_remove (hplain : d.IsPlain) (hp : p.IsDirect) {recursive : Bool}
    (h : remove p recursive d = .ok () d') (rest : Key) : d'.get? (p.names ++ rest) = none := by
  obtain ⟨⟨found, hfound⟩, hthin, hnowhere⟩ := leadsNowhere_of_remove h
  have hplain' : d'.IsPlain := by
    have hspares := spares_remove hp recursive d hplain
    rw [h] at hspares
    exact hspares.1
  exact hplain.get?_of_leadsNowhere hplain' hp hthin hfound hnowhere rest

/-! ## Writing -/

/-- What was written to a file is read there, wherever links lead. -/
theorem readText?_of_write {contents : Text} (h : write p contents.toBytes d = .ok () d') :
    d'.readText? p = .ok contents := by
  obtain ⟨spot, name, hlocate, hlast, hlength, hslash, hdir, rfl⟩ :=
    (commits_write_spot contents.toBytes).of_ok h
  -- a link at the end would have been followed
  have hend : d.EndsFree spot := endsFree_of_locate hlocate (by rw [hslash]; rfl)
  obtain ⟨hagain, hend'⟩ := locate_set hlocate hlast hdir hend contents.toBytes
  have halways : (d.set (spot.dir ++ [name]) (.file contents.toBytes)).locate .always p = .ok spot :=
    (locate_following (fun _ _ => rfl) fun spot' hspot' => by
      obtain rfl : spot' = spot := Except.ok.inj (hspot'.symm.trans hagain)
      exact hend').trans hagain
  have hget : (d.set (spot.dir ++ [name]) (.file contents.toBytes)).get? (spot.dir ++ [name]) =
      some (.file contents.toBytes) := by
    rw [get?_set (by simp), if_pos rfl]
  unfold readText?
  rw [status_of_locate halways hlast hlength hslash hget]
  simp only [bind, Except.bind, Text.ofBytes?_toBytes]

end DiskAction

end WorkspaceEditing
