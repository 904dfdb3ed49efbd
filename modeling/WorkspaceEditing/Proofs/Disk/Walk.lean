import WorkspaceEditing.Disk.Walk
import WorkspaceEditing.Proofs.Disk.Tree
import WorkspaceEditing.Proofs.Path.Names

/-!
# Walking a path

A walk goes on by one name after the other, and each link on its way starts a walk of its own. What
holds of walks within the names of one link, as soon as it holds of where links lead, holds of paths.

In a tree without links a walk ends in a directory, and a path that never goes up leads to the key of
its names. If nothing is found there, then nothing stands at that key, or at one above it.

## Main definitions

* `Spot.key` — the key that a walk has come to.

## Main results

* `Disk.locate_rel` — what relates the walks of names in two trees relates the walks of paths.
* `Disk.IsPlain.locate_ok` — where a walk that succeeds ends.
* `Disk.IsPlain.status_ok`, `Disk.IsPlain.linkStatus_ok` — what is found stands at the names.
* `Disk.IsPlain.exists_missing` — a path that is not found has a key above it that is missing.
-/

namespace WorkspaceEditing

/-- The key that a walk has come to. -/
def Spot.key (spot : Spot) : Key :=
  match spot.last with
  | .name name => spot.dir ++ [name]
  | .here | .root => spot.dir
  | .above => spot.dir.dropLast

namespace Disk

variable {d d' : Disk} {p : Path} {following following' : Following}
  {jump : Key → List UInt8 → List Name → Bool → Except DiskError Spot}
  {dir : Key} {name : Name} {steps rest : List Name} {slash : Bool} {spot : Spot}
  {found : Key × Entry}

/-! ## From names to paths -/

theorem walkNames_last (hhere : name ≠ Path.here) (habove : name ≠ Path.above) :
    d.walkNames following jump dir [name] slash =
      match d.get? (dir ++ [name]) with
      | some (.link target) =>
        if following.follows slash then jump dir target [] slash else .ok ⟨dir, .name name, slash⟩
      | _ => .ok ⟨dir, .name name, slash⟩ := by
  rw [walkNames, if_pos rfl, if_neg hhere]
  exact if_neg habove

/-- At the end of a walk, a name that stands for no link stays as it is. -/
theorem walkNames_name (hhere : name ≠ Path.here) (habove : name ≠ Path.above)
    (hlink : ∀ target, d.get? (dir ++ [name]) ≠ some (.link target)) :
    d.walkNames following jump dir [name] slash = .ok ⟨dir, .name name, slash⟩ := by
  rw [walkNames_last hhere habove]
  split
  · next target heq => exact absurd heq (hlink target)
  · rfl

/-- On the way, `.` stays in a directory, -/
theorem walkNames_here_cons (hrest : rest ≠ []) :
    d.walkNames following jump dir (Path.here :: rest) slash =
      d.walkNames following jump dir rest slash := by
  rw [walkNames, if_neg hrest, if_pos rfl]

/-- and `..` leads to the one above. -/
theorem walkNames_above_cons (hrest : rest ≠ []) :
    d.walkNames following jump dir (Path.above :: rest) slash =
      d.walkNames following jump dir.dropLast rest slash := by
  rw [walkNames, if_neg hrest, if_neg (by decide), if_pos rfl]

theorem walkNames_next (hrest : rest ≠ []) (hhere : name ≠ Path.here) (habove : name ≠ Path.above)
    (hlength : ¬ name.length > maxNameLength) :
    d.walkNames following jump dir (name :: rest) slash =
      match d.get? (dir ++ [name]) with
      | none => .error .notFound
      | some (.file _) => .error .notDirectory
      | some .dir => d.walkNames following jump (dir ++ [name]) rest slash
      | some (.link target) => jump dir target rest slash := by
  rw [walkNames, if_neg hrest, if_neg hhere, if_neg habove]
  exact if_neg hlength

/-- What relates the walks of names in two trees, whenever it relates where their links lead, relates
the walks of paths. -/
theorem locate_rel {R : Except DiskError Spot → Except DiskError Spot → Prop}
    (herror : ∀ cause, R (.error cause) (.error cause))
    (hnames : ∀ jump jump', (∀ dir target rest slash,
        R (jump dir target rest slash) (jump' dir target rest slash)) →
      ∀ dir steps slash, R (d.walkNames following jump dir steps slash)
        (d'.walkNames following' jump' dir steps slash)) (p : Path) :
    R (d.locate following p) (d'.locate following' p) := by
  have hwalk (links : Nat) (dir : Key) (steps : List Name) (slash : Bool) :
      R (d.walk following links dir steps slash) (d'.walk following' links dir steps slash) := by
    induction links generalizing dir steps slash with
    | zero => exact hnames _ _ (fun _ _ _ _ => herror _) _ _ _
    | succ links ih => exact hnames _ _ (fun _ _ _ _ => ih _ _ _) _ _ _
  unfold locate
  split_ifs
  · exact herror _
  · exact herror _
  · exact herror _
  · exact hwalk _ _ _ _

/-- The names of a path are the steps of a walk, but for those that stay where they are. -/
theorem names_eq_steps (p : Path) : p.names = (stepsOf p.bytes).filter (· ≠ Path.here) := by
  rw [Path.names_eq, stepsOf, List.filter_filter]
  congr 1
  funext name
  by_cases hnil : name = [] <;> by_cases hhere : name = Path.here <;>
    simp [Path.isTrivial, hnil, hhere]

theorem above_not_mem_steps (h : p.IsDirect) : Path.above ∉ stepsOf p.bytes := by
  intro hmem
  apply h
  rw [names_eq_steps]
  exact List.mem_filter.2 ⟨hmem, by decide⟩

namespace IsPlain

variable (h : d.IsPlain)
include h

/-- A walk from a directory ends in a directory, and if it never goes up, then at the names that it
has walked. -/
theorem walkNames_ok (hdir : d.get? dir = some .dir)
    (hwalk : d.walkNames following jump dir steps slash = .ok spot) :
    d.get? spot.dir = some .dir ∧ (Path.above ∉ steps →
      spot.last ≠ .above ∧ spot.key = dir ++ steps.filter (· ≠ Path.here)) := by
  fun_induction walkNames d following jump dir steps slash with
  | case1 dir slash =>
    cases hwalk
    simp [hdir, Spot.key]
  | case2 dir slash =>
    cases hwalk
    simp [hdir, Spot.key]
  | case3 dir slash _ =>
    cases hwalk
    simp [hdir]
  | case4 dir name slash _ _ link hlink _ => exact absurd hlink (h.linkFree _ link)
  | case5 dir name slash _ _ link hlink _ => exact absurd hlink (h.linkFree _ link)
  | case6 dir name slash hhere _ _ =>
    cases hwalk
    simp [hdir, hhere, Spot.key]
  | case7 dir rest slash _ ih =>
    obtain ⟨hspot, hkey⟩ := ih hdir hwalk
    exact ⟨hspot, fun habove => by simpa using hkey (List.not_mem_of_not_mem_cons habove)⟩
  | case8 dir rest slash _ _ ih =>
    obtain ⟨hspot, -⟩ := ih (h.parent dir (by simp [hdir])) hwalk
    exact ⟨hspot, fun habove => absurd List.mem_cons_self habove⟩
  | case9 => cases hwalk
  | case10 => cases hwalk
  | case11 => cases hwalk
  | case12 dir name rest slash _ hhere _ _ hnext ih =>
    obtain ⟨hspot, hkey⟩ := ih hnext hwalk
    exact ⟨hspot, fun habove => by
      simpa [hhere] using hkey (List.not_mem_of_not_mem_cons habove)⟩
  | case13 dir name rest slash _ _ _ _ link hlink => exact absurd hlink (h.linkFree _ link)

/-- A walk that never goes up finds everything, unless there is something missing. -/
theorem walkNames_notFound (hsteps : Path.above ∉ steps)
    (hwalk : d.walkNames following jump dir steps slash = .error .notFound) :
    ∃ missing, missing <+: dir ++ steps.filter (· ≠ Path.here) ∧ d.get? missing = none := by
  fun_induction walkNames d following jump dir steps slash with
  | case4 dir name slash _ _ link hlink _ => exact absurd hlink (h.linkFree _ link)
  | case7 dir rest slash _ ih => simpa using ih (List.not_mem_of_not_mem_cons hsteps) hwalk
  | case8 => exact absurd List.mem_cons_self hsteps
  | case10 dir name rest slash _ hhere _ _ hmissing =>
    refine ⟨dir ++ [name], ?_, hmissing⟩
    simp [hhere]
  | case12 dir name rest slash _ hhere _ _ _ ih =>
    simpa [hhere] using ih (List.not_mem_of_not_mem_cons hsteps) hwalk
  | case13 dir name rest slash _ _ _ _ link hlink => exact absurd hlink (h.linkFree _ link)
  | _ => cases hwalk

/-! ## Paths -/

/-- The walk of a path ends in a directory, and if the path never goes up, then at its names. -/
theorem locate_ok (hlocate : d.locate following p = .ok spot) :
    d.get? spot.dir = some .dir ∧ (p.IsDirect → spot.last ≠ .above ∧ spot.key = p.names) := by
  unfold locate at hlocate
  split_ifs at hlocate
  obtain ⟨hdir, hkey⟩ := h.walkNames_ok d.get?_nil hlocate
  refine ⟨hdir, fun hp => ?_⟩
  rw [names_eq_steps]
  exact hkey (above_not_mem_steps hp)

/-- The directory and the name that the last step of a path leads to. -/
theorem locate_name (hp : p.IsDirect) (hlocate : d.locate following p = .ok spot) {name : Name}
    (hname : spot.last = .name name) :
    p.names = spot.dir ++ [name] ∧ d.get? spot.dir = some .dir := by
  obtain ⟨hdir, hkey⟩ := h.locate_ok hlocate
  refine ⟨?_, hdir⟩
  rw [← (hkey hp).2, Spot.key, hname]

/-- What is found at the end of a walk stands at its key. -/
theorem entryAt_ok (hdir : d.get? spot.dir = some .dir) (hfound : d.entryAt spot = .ok found) :
    found.1 = spot.key ∧ d.get? found.1 = some found.2 := by
  unfold entryAt at hfound
  unfold Spot.key
  cases hlast : spot.last with
  | name name =>
    simp only [hlast] at hfound ⊢
    split at hfound
    · cases hfound
    · split at hfound
      · cases hfound
      · next hget =>
        cases hfound
        exact ⟨rfl, hget⟩
      · next entry _ hget =>
        split at hfound
        · cases hfound
        · cases hfound
          exact ⟨rfl, hget⟩
  | here =>
    simp only [hlast] at hfound ⊢
    cases hfound
    exact ⟨rfl, hdir⟩
  | above =>
    simp only [hlast] at hfound ⊢
    cases hfound
    exact ⟨rfl, h.parent _ (by simp [hdir])⟩
  | root =>
    simp only [hlast] at hfound ⊢
    cases hfound
    exact ⟨rfl, hdir⟩

/-- What stands at a path that never goes up stands at its names. -/
theorem entryAt_locate_ok (hp : p.IsDirect)
    (hfound : (d.locate following p >>= d.entryAt) = .ok found) :
    found.1 = p.names ∧ d.get? found.1 = some found.2 := by
  cases hlocate : d.locate following p with
  | error cause =>
    rw [hlocate] at hfound
    cases hfound
  | ok spot =>
    rw [hlocate] at hfound
    obtain ⟨hdir, hkey⟩ := h.locate_ok hlocate
    obtain ⟨heq, hget⟩ := h.entryAt_ok hdir hfound
    exact ⟨heq.trans (hkey hp).2, hget⟩

theorem status_ok (hp : p.IsDirect) (hstatus : d.status p = .ok found) :
    found.1 = p.names ∧ d.get? found.1 = some found.2 := h.entryAt_locate_ok hp hstatus

theorem linkStatus_ok (hp : p.IsDirect) (hstatus : d.linkStatus p = .ok found) :
    found.1 = p.names ∧ d.get? found.1 = some found.2 := h.entryAt_locate_ok hp hstatus

omit h in
theorem entryAt_notFound (hfound : d.entryAt spot = .error .notFound) :
    d.get? spot.key = none := by
  unfold entryAt at hfound
  cases hlast : spot.last with
  | name name =>
    simp only [hlast] at hfound
    simp only [Spot.key, hlast]
    split at hfound
    · cases hfound
    · split at hfound
      · assumption
      · cases hfound
      · split at hfound <;> cases hfound
  | _ =>
    simp only [hlast] at hfound
    cases hfound

/-- If a path that never goes up is not found, then something on its way is missing. -/
theorem exists_missing (hp : p.IsDirect) (hbytes : p.bytes ≠ [])
    (hstatus : d.status p = .error .notFound) :
    ∃ missing, missing <+: p.names ∧ d.get? missing = none := by
  unfold status at hstatus
  cases hlocate : d.locate .always p with
  | error cause =>
    rw [hlocate] at hstatus
    obtain rfl := Except.error.inj hstatus
    unfold locate at hlocate
    rw [names_eq_steps]
    split_ifs at hlocate
    · cases hlocate
    · cases hlocate
    · exact h.walkNames_notFound (above_not_mem_steps hp) hlocate
  | ok spot =>
    rw [hlocate] at hstatus
    obtain ⟨-, hkey⟩ := h.locate_ok hlocate
    exact ⟨spot.key, (hkey hp).2 ▸ List.prefix_refl _, entryAt_notFound hstatus⟩

end IsPlain

end Disk

end WorkspaceEditing
