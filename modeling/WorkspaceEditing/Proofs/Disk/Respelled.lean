import WorkspaceEditing.Proofs.Disk.Revisit

/-!
# Paths in another spelling

Two paths with the same names may differ in what means nothing, in repeated slashes and in `.` on
the way. They lead to the same place, wherever links lead, unless one of them ends in a slash or in
`.` and asks for a directory. Beneath a file, however, no path leads anywhere.

## Main definitions

* `Path.Walkable` — a path that is walked at all.
* `Disk.Blocks` — the end of a walk from which no walk goes on.

## Main results

* `Disk.locate_of_not_slash` — what following at the end means for paths that ask for no directory.
* `Disk.locate_congr` — paths with the same names lead to the same place.
* `Disk.locate_of_names` — a walk that comes through from a file has not gone beneath it.
-/

namespace WorkspaceEditing

variable {d d₀ : Disk} {p q : Path} {f f' : Following}
  {jump jump' : Key → List UInt8 → List Name → Bool → Except DiskError Spot}
  {links : Nat} {dir : Key} {steps rest : List Name} {slash : Bool} {spot : Spot} {name : Name}

/-- The path is walked, and not refused at once. -/
def Path.Walkable (p : Path) : Prop :=
  p.bytes.contains 0 = false ∧ p.bytes ≠ [] ∧ p.bytes.length < pathLengthLimit

namespace Disk

theorem locate_eq_walk (h : p.Walkable) (d : Disk) (f : Following) :
    d.locate f p = d.walk f maxLinks [] (stepsOf p.bytes) (endsInSlash p.bytes) := by
  rw [locate, h.1, if_neg Bool.false_ne_true, if_neg h.2.1, if_neg (Nat.not_le.2 h.2.2)]

theorem walkable_of_locate (h : d.locate f p = .ok spot) : p.Walkable := by
  unfold locate at h
  split_ifs at h with hnul hnil hlong
  exact ⟨by simpa using hnul, hnil, Nat.lt_of_not_le hlong⟩

/-! ## Slashes at the end -/

/-- Whether a slash is at the end decides on a last link only if there is one. -/
theorem walkNames_of_not_slash (hf : f.follows false = f'.follows false)
    (hjump : ∀ dir target rest slash, jump dir target rest slash = .ok spot →
      slash = false ∧ jump' dir target rest slash = .ok spot)
    (hslash : spot.slash = false) (hwalk : d.walkNames f jump dir steps slash = .ok spot) :
    slash = false ∧ d.walkNames f' jump' dir steps slash = .ok spot := by
  fun_induction walkNames d f jump dir steps slash with
  | case4 dir name slash hhere habove target hlink hfollows =>
    obtain ⟨rfl, hjump⟩ := hjump _ _ _ _ hwalk
    refine ⟨rfl, ?_⟩
    rw [walkNames_last hhere habove, hlink]
    exact (if_pos (hf ▸ hfollows)).trans hjump
  | case5 dir name slash hhere habove target hlink hnot =>
    cases hwalk
    obtain rfl : slash = false := hslash
    rw [walkNames_last hhere habove, hlink]
    exact ⟨rfl, if_neg (by rwa [← hf])⟩
  | case6 dir name slash hhere habove hlink =>
    cases hwalk
    exact ⟨hslash, walkNames_name hhere habove hlink⟩
  | case7 dir rest slash hrest ih =>
    rw [walkNames_here_cons hrest]
    exact ih hwalk
  | case8 dir rest slash hrest _ ih =>
    rw [walkNames_above_cons hrest]
    exact ih hwalk
  | case12 dir name rest slash hrest hhere habove hlength hdir ih =>
    rw [walkNames_next hrest hhere habove hlength, hdir]
    exact ih hwalk
  | case13 dir name rest slash hrest hhere habove hlength target hlink =>
    rw [walkNames_next hrest hhere habove hlength, hlink]
    exact hjump _ _ _ _ hwalk
  | case9 | case10 | case11 => cases hwalk
  | _ =>
    cases hwalk
    simp_all [walkNames]

theorem walk_of_not_slash (hf : f.follows false = f'.follows false) (hslash : spot.slash = false)
    (hwalk : d.walk f links dir steps slash = .ok spot) :
    slash = false ∧ d.walk f' links dir steps slash = .ok spot := by
  induction links generalizing dir steps slash with
  | zero =>
    rw [walk] at hwalk ⊢
    refine walkNames_of_not_slash hf (fun _ _ _ _ hjump => ?_) hslash hwalk
    cases hjump
  | succ links ih =>
    refine walkNames_of_not_slash hf (fun dir target rest slash hjump => ?_) hslash hwalk
    obtain ⟨hnone, hjump⟩ := ih hjump
    exact ⟨(Bool.or_eq_false_iff.1 hnone).1, hjump⟩

/-- A walk that ends without a slash goes the same way if links at the end are followed as before
where there is none. -/
theorem locate_of_not_slash (hlocate : d.locate f p = .ok spot) (hslash : spot.slash = false)
    (f' : Following) (hf : f.follows false = f'.follows false) :
    endsInSlash p.bytes = false ∧ d.locate f' p = .ok spot := by
  have hp := walkable_of_locate hlocate
  rw [locate_eq_walk hp] at hlocate ⊢
  exact walk_of_not_slash hf hslash hlocate

/-! ## Steps that stay where they are -/

/-- Of steps that do not end in `.`, one at least leads on. -/
theorem filter_ne_nil (hrest : rest ≠ []) (hlast : rest.getLast? ≠ some Path.here) :
    rest.filter (· ≠ Path.here) ≠ [] := by
  intro hnil
  have hstay := List.filter_eq_nil_iff.1 hnil _ (List.getLast_mem hrest)
  exact hlast (by simpa [List.getLast?_eq_some_getLast hrest] using hstay)

theorem getLast?_filter_ne (rest : List Name) :
    (rest.filter (· ≠ Path.here)).getLast? ≠ some Path.here := by
  intro hlast
  simpa using List.of_mem_filter (List.mem_of_getLast? hlast)

theorem filter_cons_ne {name : Name} (hhere : name ≠ Path.here) (rest : List Name) :
    (name :: rest).filter (· ≠ Path.here) = name :: rest.filter (· ≠ Path.here) :=
  List.filter_cons_of_pos (by simpa using hhere)

/-- A `.` on the way changes nothing. -/
theorem walkNames_withoutHere
    (hjump : ∀ dir target rest slash, rest.getLast? ≠ some Path.here →
      jump' dir target (rest.filter (· ≠ Path.here)) slash = jump dir target rest slash)
    (hlast : steps.getLast? ≠ some Path.here) :
    d.walkNames f jump' dir (steps.filter (· ≠ Path.here)) slash =
      d.walkNames f jump dir steps slash := by
  fun_induction walkNames d f jump dir steps slash with
  | case1 => rfl
  | case2 => exact absurd rfl hlast
  | case3 dir slash _ => rfl
  | case4 dir name slash hhere habove target hlink hfollows =>
    rw [filter_cons_ne hhere, List.filter_nil, walkNames_last hhere habove, hlink]
    exact (if_pos hfollows).trans (hjump _ _ [] _ (by simp))
  | case5 dir name slash hhere habove target hlink hnot =>
    rw [filter_cons_ne hhere, List.filter_nil, walkNames_last hhere habove, hlink]
    exact if_neg hnot
  | case6 dir name slash hhere habove hlink =>
    rw [filter_cons_ne hhere, List.filter_nil, walkNames_name hhere habove hlink]
  | case7 dir rest slash hrest ih =>
    rw [List.getLast?_cons_of_ne_nil hrest] at hlast
    exact ih hlast
  | case8 dir rest slash hrest hhere ih =>
    rw [List.getLast?_cons_of_ne_nil hrest] at hlast
    rw [filter_cons_ne hhere, walkNames_above_cons (filter_ne_nil hrest hlast)]
    exact ih hlast
  | case9 dir name rest slash hrest hhere habove hlength =>
    rw [List.getLast?_cons_of_ne_nil hrest] at hlast
    rw [filter_cons_ne hhere, walkNames, if_neg (filter_ne_nil hrest hlast), if_neg hhere,
      if_neg habove, if_pos hlength]
  | case10 dir name rest slash hrest hhere habove hlength hnone =>
    rw [List.getLast?_cons_of_ne_nil hrest] at hlast
    rw [filter_cons_ne hhere, walkNames_next (filter_ne_nil hrest hlast) hhere habove hlength,
      hnone]
  | case11 dir name rest slash hrest hhere habove hlength contents hfile =>
    rw [List.getLast?_cons_of_ne_nil hrest] at hlast
    rw [filter_cons_ne hhere, walkNames_next (filter_ne_nil hrest hlast) hhere habove hlength,
      hfile]
  | case12 dir name rest slash hrest hhere habove hlength hdir ih =>
    rw [List.getLast?_cons_of_ne_nil hrest] at hlast
    rw [filter_cons_ne hhere, walkNames_next (filter_ne_nil hrest hlast) hhere habove hlength,
      hdir]
    exact ih hlast
  | case13 dir name rest slash hrest hhere habove hlength target hlink =>
    rw [List.getLast?_cons_of_ne_nil hrest] at hlast
    rw [filter_cons_ne hhere, walkNames_next (filter_ne_nil hrest hlast) hhere habove hlength,
      hlink]
    exact hjump _ _ _ _ hlast

theorem walk_withoutHere (hlast : steps.getLast? ≠ some Path.here) :
    d.walk f links dir (steps.filter (· ≠ Path.here)) slash = d.walk f links dir steps slash := by
  induction links generalizing dir steps slash with
  | zero => exact walkNames_withoutHere (fun _ _ _ _ _ => rfl) hlast
  | succ links ih =>
    refine walkNames_withoutHere (fun dir target rest slash hlast => ?_) hlast
    by_cases hrest : rest = []
    · subst hrest
      rfl
    · have hrest' := filter_ne_nil hrest hlast
      have hfollowed {rest' : List Name} (hrest' : rest' ≠ [])
          (hlast' : rest'.getLast? ≠ some Path.here) :
          (stepsOf target ++ rest').getLast? ≠ some Path.here := by
        rwa [List.getLast?_append_of_ne_nil _ hrest']
      simp only [hrest, hrest', decide_false, Bool.false_and, Bool.or_false]
      -- both walks come down to the steps of the link and the rest without those that stay
      rw [← ih (hfollowed hrest hlast), ← ih (hfollowed hrest' (getLast?_filter_ne rest)),
        List.filter_append, List.filter_append, List.filter_filter]
      simp only [Bool.and_self]

/-- A walk that ends in `.` ends nowhere else. -/
theorem walkNames_here
    (hjump : ∀ dir target rest slash, rest.getLast? = some Path.here →
      jump dir target rest slash = .ok spot → spot.last = .here)
    (hlast : steps.getLast? = some Path.here)
    (hwalk : d.walkNames f jump dir steps slash = .ok spot) : spot.last = .here := by
  fun_induction walkNames d f jump dir steps slash with
  | case1 => cases hlast
  | case2 => exact Except.ok.inj hwalk ▸ rfl
  | case3 => cases hlast
  | case4 _ _ _ hhere | case5 _ _ _ hhere | case6 _ _ _ hhere =>
    exact absurd (Option.some.inj hlast) hhere
  | case7 dir rest slash hrest ih =>
    exact ih ((List.getLast?_cons_of_ne_nil hrest).symm.trans hlast) hwalk
  | case8 dir rest slash hrest _ ih =>
    exact ih ((List.getLast?_cons_of_ne_nil hrest).symm.trans hlast) hwalk
  | case12 dir name rest slash hrest _ _ _ _ ih =>
    exact ih ((List.getLast?_cons_of_ne_nil hrest).symm.trans hlast) hwalk
  | case13 dir name rest slash hrest =>
    exact hjump _ _ _ _ ((List.getLast?_cons_of_ne_nil hrest).symm.trans hlast) hwalk
  | case9 | case10 | case11 => cases hwalk

theorem walk_here (hlast : steps.getLast? = some Path.here)
    (hwalk : d.walk f links dir steps slash = .ok spot) : spot.last = .here := by
  induction links generalizing dir steps slash with
  | zero =>
    rw [walk] at hwalk
    refine walkNames_here (fun _ _ _ _ _ hjump => ?_) hlast hwalk
    cases hjump
  | succ links ih =>
    rw [walk] at hwalk
    refine walkNames_here (fun dir target rest slash hlast hjump => ?_) hlast hwalk
    have hrest : rest ≠ [] := by
      rintro rfl
      cases hlast
    exact ih (by rwa [List.getLast?_append_of_ne_nil _ hrest]) hjump

/-- A path whose walk ends at a name does not end in `.`. -/
theorem getLast?_steps (hlocate : d.locate f p = .ok spot) (hlast : spot.last = .name name) :
    (stepsOf p.bytes).getLast? ≠ some Path.here := by
  intro hhere
  rw [locate_eq_walk (walkable_of_locate hlocate)] at hlocate
  cases hlast.symm.trans (walk_here hhere hlocate)

/-! ## Beneath what is no directory -/

/-- A walk that ends so does not go on: it has failed, or has come to a name under which no
directory and no link stands. -/
def Blocks (d : Disk) (r : Except DiskError Spot) : Prop :=
  ∀ spot, r = .ok spot → ∃ name, spot.last = .name name ∧
    (d.get? (spot.dir ++ [name]) = none ∨ d.IsFile (spot.dir ++ [name]))

/-- It has not ended at a link. -/
theorem Blocks.endsFree {r : Except DiskError Spot} (h : d.Blocks r) (hspot : r = .ok spot) :
    d.EndsFree spot := by
  obtain ⟨name, hname, hnone | ⟨contents, hfile⟩⟩ := h spot hspot
  · exact endsFree_of_name hname (by simp [hnone])
  · exact endsFree_of_name hname (by simp [hfile])

/-- A longer walk comes by there, and fails. -/
theorem walkNames_blocked {more : List Name} {slash' : Bool} (hmore : more ≠ [])
    (hjump : ∀ dir target rest slash, rest ≠ [] → d.Blocks (jump dir target rest slash) →
      ∃ cause, jump' dir target (rest ++ more) slash' = .error cause)
    (hblocks : d.Blocks (d.walkNames .never jump dir steps slash)) :
    ∃ cause, d.walkNames f' jump' dir (steps ++ more) slash' = .error cause := by
  have hlonger (rest : List Name) : rest ++ more ≠ [] :=
    List.append_ne_nil_of_right_ne_nil rest hmore
  generalize hnever : Following.never = f at hblocks
  fun_induction walkNames d f jump dir steps slash with
  | case1 | case2 | case3 =>
    obtain ⟨name, hlast, -⟩ := hblocks _ rfl
    cases hlast
  | case4 dir name slash _ _ target _ hfollows =>
    subst hnever
    cases hfollows
  | case5 dir name slash _ _ target hlink _ =>
    obtain ⟨_, hlast, hnone | ⟨contents, hfile⟩⟩ := hblocks _ rfl
    · cases hlast
      cases hnone.symm.trans hlink
    · cases hlast
      cases hfile.symm.trans hlink
  | case6 dir name slash hhere habove hlink =>
    obtain ⟨_, hlast, hentry⟩ := hblocks _ rfl
    cases hlast
    by_cases hlength : name.length > maxNameLength
    · refine ⟨.nameTooLong, ?_⟩
      rw [List.singleton_append, walkNames, if_neg hmore, if_neg hhere, if_neg habove,
        if_pos hlength]
    · rw [List.singleton_append, walkNames_next hmore hhere habove hlength]
      rcases hentry with hnone | ⟨contents, hfile⟩
      · rw [hnone]
        exact ⟨_, rfl⟩
      · rw [hfile]
        exact ⟨_, rfl⟩
  | case7 dir rest slash hrest ih =>
    rw [List.cons_append, walkNames_here_cons (hlonger rest)]
    exact ih hblocks
  | case8 dir rest slash hrest _ ih =>
    rw [List.cons_append, walkNames_above_cons (hlonger rest)]
    exact ih hblocks
  | case9 dir name rest slash hrest hhere habove hlength =>
    rw [List.cons_append, walkNames, if_neg (hlonger rest), if_neg hhere, if_neg habove,
      if_pos hlength]
    exact ⟨_, rfl⟩
  | case10 dir name rest slash hrest hhere habove hlength hnone =>
    rw [List.cons_append, walkNames_next (hlonger rest) hhere habove hlength, hnone]
    exact ⟨_, rfl⟩
  | case11 dir name rest slash hrest hhere habove hlength contents hfile =>
    rw [List.cons_append, walkNames_next (hlonger rest) hhere habove hlength, hfile]
    exact ⟨_, rfl⟩
  | case12 dir name rest slash hrest hhere habove hlength hdir ih =>
    rw [List.cons_append, walkNames_next (hlonger rest) hhere habove hlength, hdir]
    exact ih hblocks
  | case13 dir name rest slash hrest hhere habove hlength target hlink =>
    rw [List.cons_append, walkNames_next (hlonger rest) hhere habove hlength, hlink]
    exact hjump _ _ _ _ hrest hblocks

theorem walk_blocked {more : List Name} (hmore : more ≠ []) {slash' : Bool}
    (hblocks : d.Blocks (d.walk .never links dir steps slash)) :
    ∃ cause, d.walk f links dir (steps ++ more) slash' = .error cause := by
  induction links generalizing dir steps slash slash' with
  | zero => exact walkNames_blocked hmore (fun _ _ _ _ _ _ => ⟨_, rfl⟩) hblocks
  | succ links ih =>
    refine walkNames_blocked hmore (fun dir target rest slash hrest hblocks => ?_) hblocks
    have hlonger : rest ++ more ≠ [] := List.append_ne_nil_of_right_ne_nil rest hmore
    simp only [hlonger, decide_false, Bool.false_and, Bool.or_false]
    rw [← List.append_assoc]
    exact ih hblocks

/-! ## Paths -/

/-- Paths with the same names lead to the same place, if neither ends in a slash or in `.`. -/
theorem locate_congr (hp : p.Walkable) (hq : q.Walkable) (hnames : p.names = q.names)
    (hlastp : (stepsOf p.bytes).getLast? ≠ some Path.here)
    (hlastq : (stepsOf q.bytes).getLast? ≠ some Path.here)
    (hslash : endsInSlash p.bytes = endsInSlash q.bytes) (d : Disk) (f : Following) :
    d.locate f p = d.locate f q := by
  rw [names_eq_steps, names_eq_steps] at hnames
  rw [locate_eq_walk hp, locate_eq_walk hq, ← walk_withoutHere hlastp, ← walk_withoutHere hlastq,
    hnames, hslash]

/-- Let a path lead to a name in one tree, and block in another. If a path beneath it leads to a
name there, then it is the path itself, in another spelling, and leads to the same place. -/
theorem locate_of_names {spot₀ : Spot} {name₀ : Name} (hlocate₀ : d₀.locate .never p = .ok spot₀)
    (hlast₀ : spot₀.last = .name name₀) (hslash₀ : spot₀.slash = false)
    (hblocks : d.Blocks (d.locate .never p)) (hnames : q.names = p.names ++ rest)
    (hlocate : d.locate .withoutSlash q = .ok spot) (hlast : spot.last = .name name)
    (hslash : spot.slash = false) : rest = [] ∧ d.locate .never p = .ok spot := by
  have hp := walkable_of_locate hlocate₀
  have hq := walkable_of_locate hlocate
  have hlastp := getLast?_steps hlocate₀ hlast₀
  have hlastq := getLast?_steps hlocate hlast
  obtain ⟨hslashp, -⟩ := locate_of_not_slash hlocate₀ hslash₀ .never rfl
  obtain ⟨hslashq, -⟩ := locate_of_not_slash hlocate hslash .withoutSlash rfl
  by_cases hrest : rest = []
  · subst hrest
    rw [List.append_nil] at hnames
    have hfollowing : d.locate .withoutSlash p = d.locate .never p :=
      locate_following (fun _ hfollows => nomatch hfollows) fun spot => hblocks.endsFree
    rw [← hfollowing, ← hlocate,
      locate_congr hp hq hnames.symm hlastp hlastq (hslashp.trans hslashq.symm)]
    exact ⟨rfl, rfl⟩
  · rw [locate_eq_walk hp, ← walk_withoutHere hlastp, ← names_eq_steps] at hblocks
    rw [locate_eq_walk hq, ← walk_withoutHere hlastq, ← names_eq_steps, hnames] at hlocate
    obtain ⟨cause, hcause⟩ := walk_blocked (f := .withoutSlash) hrest hblocks
    cases hcause.symm.trans hlocate

end Disk

end WorkspaceEditing
