import WorkspaceEditing.Proofs.Disk.Operations

/-!
# Looking before writing

Whether something stands at a path is asked before a file is created, or put, at the path. The
answer is no also where the path cannot be walked, or asks for a directory where a file stands. But
then the operation that follows cannot put anything there either: if it succeeds although a file
stood at the names of the path, then that file has been seen.

## Main results

* `Disk.IsPlain.locate_transfer` — a walk goes the same way in every tree that has its directories.
* `DiskAction.isPresent_of_write`, `DiskAction.isPresent_of_rename` — a file in the way is seen.
-/

namespace WorkspaceEditing

variable {d d' : Disk} {p : Path} {following following' : Following}
  {jump jump' : Key → List UInt8 → List Name → Bool → Except DiskError Spot}
  {dir : Key} {steps : List Name} {slash : Bool} {spot : Spot} {name : Name}

namespace Disk

/-! ## The way of a walk -/

namespace IsPlain

/-- Above a directory are directories. -/
theorem get?_of_prefix (h : d.IsPlain) {base key : Key} (hkey : d.get? key = some .dir)
    (hleads : base <+: key) : d.get? base = some .dir := by
  obtain ⟨rest, rfl⟩ := hleads
  by_cases hnil : rest = []
  · simpa [hnil] using hkey
  · exact h.get?_of_append hnil (by simp [hkey])

/-- A walk that never goes up ends in the directory it starts from, or beneath it. -/
theorem prefix_of_walkNames (h : d.IsPlain) (hsteps : Path.above ∉ steps)
    (hwalk : d.walkNames following jump dir steps slash = .ok spot) : dir <+: spot.dir := by
  fun_induction walkNames d following jump dir steps slash with
  | case4 dir name slash _ _ link hlink _ => exact absurd hlink (h.linkFree _ link)
  | case5 dir name slash _ _ link hlink _ => exact absurd hlink (h.linkFree _ link)
  | case7 dir rest slash _ ih => exact ih (List.not_mem_of_not_mem_cons hsteps) hwalk
  | case8 => exact absurd List.mem_cons_self hsteps
  | case12 dir name rest slash _ _ _ _ _ ih =>
    exact (List.prefix_append dir [name]).trans (ih (List.not_mem_of_not_mem_cons hsteps) hwalk)
  | case13 dir name rest slash _ _ _ _ link hlink => exact absurd hlink (h.linkFree _ link)
  | case9 => cases hwalk
  | case10 => cases hwalk
  | case11 => cases hwalk
  | _ =>
    cases hwalk
    exact List.prefix_refl _

theorem walkNames_transfer (h : d.IsPlain) (h' : d'.IsPlain) (hsteps : Path.above ∉ steps)
    (hwalk : d'.walkNames following' jump' dir steps slash = .ok spot)
    (hspot : d.get? spot.dir = some .dir) :
    d.walkNames following jump dir steps slash = .ok spot := by
  fun_induction walkNames d' following' jump' dir steps slash with
  | case4 dir name slash _ _ link hlink _ => exact absurd hlink (h'.linkFree _ link)
  | case5 dir name slash _ _ link hlink _ => exact absurd hlink (h'.linkFree _ link)
  | case3 => exact absurd List.mem_cons_self hsteps
  | case8 => exact absurd List.mem_cons_self hsteps
  | case9 => cases hwalk
  | case10 => cases hwalk
  | case11 => cases hwalk
  | case13 dir name rest slash _ _ _ _ link hlink => exact absurd hlink (h'.linkFree _ link)
  | case1 => exact hwalk
  | case2 =>
    rw [walkNames, if_pos rfl, if_pos rfl]
    exact hwalk
  | case6 dir name slash hhere habove _ =>
    rw [walkNames_name hhere habove (h.linkFree _)]
    exact hwalk
  | case7 dir rest slash hrest ih =>
    rw [walkNames_here_cons hrest]
    exact ih (List.not_mem_of_not_mem_cons hsteps) hwalk
  | case12 dir name rest slash hrest hhere habove hlength _ ih =>
    have hrestSteps := List.not_mem_of_not_mem_cons hsteps
    have hnext : d.get? (dir ++ [name]) = some .dir :=
      h.get?_of_prefix hspot (h'.prefix_of_walkNames hrestSteps hwalk)
    rw [walkNames_next hrest hhere habove hlength, hnext]
    exact ih hrestSteps hwalk

/-- A walk goes the same way in every tree without links that has the directory in which it ends. -/
theorem locate_transfer (h : d.IsPlain) (h' : d'.IsPlain) (hp : p.IsDirect)
    (hlocate : d'.locate following' p = .ok spot) (hspot : d.get? spot.dir = some .dir) :
    d.locate following p = .ok spot := by
  unfold locate at hlocate ⊢
  split_ifs at hlocate ⊢
  exact h.walkNames_transfer h' (above_not_mem_steps hp) hlocate hspot

end IsPlain

/-- What stands under a name that is short enough is found, if the path does not ask for a
directory. -/
theorem status_of_locate (hlocate : d.locate .always p = .ok spot) (hlast : spot.last = .name name)
    (hlength : name.length ≤ maxNameLength) (hslash : spot.slash = false) {entry : Entry}
    (hget : d.get? (spot.dir ++ [name]) = some entry) :
    d.status p = .ok (spot.dir ++ [name], entry) := by
  unfold status
  rw [hlocate]
  show d.entryAt spot = _
  unfold entryAt
  simp only [hlast, hget, hslash, if_neg (Nat.not_lt.2 hlength)]
  cases entry <;> rfl

theorem isPresent_of_locate (hlocate : d.locate .always p = .ok spot) (hlast : spot.last = .name name)
    (hlength : name.length ≤ maxNameLength) (hslash : spot.slash = false)
    (hget : (d.get? (spot.dir ++ [name])).isSome) : d.isPresent p = true := by
  obtain ⟨entry, hentry⟩ := Option.isSome_iff_exists.1 hget
  rw [isPresent, status_of_locate hlocate hlast hlength hslash hentry]

/-- A file that stands at the end of a walk in one tree is seen there if the walk, for a path that
does not ask for a directory, has come through in another. -/
theorem IsPlain.isPresent_of_locate (h : d.IsPlain) (h' : d'.IsPlain) (hp : p.IsDirect)
    (hlocate : d'.locate following' p = .ok spot) (hlast : spot.last = .name name)
    (hlength : name.length ≤ maxNameLength) (hslash : spot.slash = false)
    (hfile : d.IsFile p.names) : d.isPresent p = true := by
  obtain ⟨contents, hget⟩ := hfile
  have hnames := (h'.locate_name hp hlocate hlast).1
  rw [hnames] at hget
  have hsome : (d.get? (spot.dir ++ [name])).isSome := by simp [hget]
  have hdir : d.get? spot.dir = some .dir := h.get?_of_append (List.cons_ne_nil _ _) hsome
  exact Disk.isPresent_of_locate (h.locate_transfer h' hp hlocate hdir) hlast hlength hslash hsome

end Disk

/-! ## Operations that put a file at a path -/

namespace DiskAction

/-- A file that stood where a file could be written has been seen. -/
theorem isPresent_of_write (h : d.IsPlain) (h' : d'.IsPlain) (hp : p.IsDirect)
    {contents : ByteArray} {written : Disk} (hrun : write p contents d' = .ok () written)
    (hfile : d.IsFile p.names) : d.isPresent p = true := by
  obtain ⟨spot, name, hlocate, hlast, hlength, hslash, -⟩ :=
    (commits_write_spot contents).of_ok hrun
  exact h.isPresent_of_locate h' hp hlocate hlast hlength hslash hfile

/-- A file that stood where another entry could be moved has been seen. -/
theorem isPresent_of_rename (h : d.IsPlain) (h' : d'.IsPlain) {source target : Path}
    (hsource : source.IsDirect) (htarget : target.IsDirect) {renamed : Disk}
    (hrun : rename source target d' = .ok () renamed) (hne : source.names ≠ target.names)
    (hfile : d.IsFile target.names) (hfile' : d'.IsFile target.names) :
    d.isPresent target = true := by
  obtain ⟨r, hcases⟩ := commits_rename_spot.of_ok hrun
  obtain ⟨hold, hnew, -⟩ := movable_of_moves h' hsource htarget r
  rw [hold, hnew] at hcases
  obtain ⟨⟨-, -, -, hplace⟩, -⟩ := hcases.resolve_left fun hsame => hne hsame.1
  rw [hnew] at hplace
  obtain ⟨contents, hfile'⟩ := hfile'
  -- no directory takes the place of a file, and a file asks for no slash behind the path
  have hentry : r.entry ≠ .dir := by
    rcases hplace with hnone | ⟨-, hdir, -⟩ | ⟨hentry, -⟩
    · cases hfile'.symm.trans hnone
    · cases hfile'.symm.trans hdir
    · exact hentry
  exact h.isPresent_of_locate h' htarget r.locate_new r.last_new r.length_le (r.slash_of_ne hentry).2
    hfile

end DiskAction

end WorkspaceEditing
