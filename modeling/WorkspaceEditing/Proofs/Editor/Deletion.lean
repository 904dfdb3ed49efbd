import WorkspaceEditing.Apply.Files
import WorkspaceEditing.Proofs.Editor.Sound
import WorkspaceEditing.Proofs.Host.Action

/-!
# Giving buffers up

Buffers are given up one after the other. Each closes the windows that show it, and if the focus was
on one of them, it goes to the first window that is left, which may be closed with a later buffer. In
the end all is as if the buffers had been given up at once: the focus is where it was, or on the first
window that is left.

## Main definitions

* `Editor.refocus` — where the focus goes when only some windows are left.
* `Editor.without` — the editor after buffers have been given up, all at once.

## Main results

* `Applier.deleteBuffers_ok` — open buffers, none of them named twice, can be given up.
* `Editor.foldl_without_eq` — one after the other is all at once.
-/

namespace WorkspaceEditing

namespace Editor

variable {e : Editor} {id : BufferId} {b : Buffer} {windows : List Window}

/-! ## The focus -/

/-- Where the focus goes when only some windows are left: it stays if its window is among them, and
goes to the first otherwise. Where nothing has the focus, nothing gets it. -/
def refocus (windows : List Window) : Option WindowId → Option WindowId
  | some id => if windows.any fun win => win.id = id then some id else windows.head?.map (·.id)
  | none => none

theorem refocus_of_mem {win : Window} (h : win ∈ windows) :
    refocus windows (some win.id) = some win.id :=
  if_pos (List.any_eq_true.2 ⟨win, h, decide_eq_true rfl⟩)

theorem refocus_of_forall_ne {focus : WindowId} (h : ∀ win ∈ windows, win.id ≠ focus) :
    refocus windows (some focus) = windows.head?.map (·.id) := by
  refine if_neg fun hany => ?_
  obtain ⟨win, hwin, hid⟩ := List.any_eq_true.1 hany
  exact h win hwin (of_decide_eq_true hid)

/-- Windows that are closed later may as well be closed at once. -/
theorem refocus_filter (h : (windows.map (·.id)).Nodup) (p : Window → Bool)
    (focus : Option WindowId) :
    refocus (windows.filter p) (refocus windows focus) = refocus (windows.filter p) focus := by
  cases focus with
  | none => rfl
  | some id =>
    by_cases hkept : ∃ win ∈ windows, win.id = id
    · obtain ⟨win, hwin, rfl⟩ := hkept
      rw [refocus_of_mem hwin]
    · push Not at hkept
      rw [refocus_of_forall_ne hkept,
        refocus_of_forall_ne fun win hwin => hkept win (List.mem_of_mem_filter hwin)]
      cases windows with
      | nil => rfl
      | cons first rest =>
        -- the first window that is left may be closed later, and then the next is the first
        by_cases hp : p first = true
        · rw [List.filter_cons_of_pos hp]
          exact refocus_of_mem List.mem_cons_self
        · rw [List.filter_cons_of_neg hp]
          refine refocus_of_forall_ne fun win hwin hid => (List.nodup_cons.1 h).1 ?_
          exact hid ▸ List.mem_map_of_mem (List.mem_of_mem_filter hwin)

/-! ## Giving up at once -/

/-- The editor after buffers have been given up, all at once. -/
def without (e : Editor) (ids : List BufferId) : Editor where
  buffers := e.buffers.filter fun b => b.id ∉ ids
  windows := e.windows.filter fun win => win.buffer ∉ ids
  focus := refocus (e.windows.filter fun win => win.buffer ∉ ids) e.focus
  issued := e.issued

theorem deleteBuffer_ok (hb : e.buffer? id = some b) : e.deleteBuffer id = .ok (e.without [id]) := by
  unfold deleteBuffer buffer
  rw [hb]
  simp only [without, List.mem_singleton]
  cases e.focus <;> rfl

theorem without_nil (h : e.Focused) : e.without [] = e := by
  have hfocus : refocus e.windows e.focus = e.focus := by
    cases hold : e.focus with
    | none => rfl
    | some id =>
      obtain ⟨win, hwin, rfl⟩ := h.mem id hold
      exact refocus_of_mem hwin
  simp [without, hfocus]

theorem without_without (h : (e.windows.map (·.id)).Nodup) (ids ids' : List BufferId) :
    (e.without ids).without ids' = e.without (ids ++ ids') := by
  have hboth (id : BufferId) :
      (decide (id ∉ ids') && decide (id ∉ ids)) = decide (id ∉ ids ++ ids') := by
    by_cases hid : id ∈ ids <;> by_cases hid' : id ∈ ids' <;> simp [hid, hid']
  have hnodup : ((e.windows.filter fun win => win.buffer ∉ ids).map (·.id)).Nodup :=
    h.sublist (List.filter_sublist.map _)
  have hfocus := refocus_filter hnodup (fun win => win.buffer ∉ ids') e.focus
  simp only [List.filter_filter, hboth] at hfocus
  simp only [without, List.filter_filter, hboth, hfocus]

/-- To give buffers up one after the other is to give them up at once, whichever have been given up
before, -/
theorem foldl_without (h : (e.windows.map (·.id)).Nodup) (before ids : List BufferId) :
    ids.foldl (fun e id => e.without [id]) (e.without before) = e.without (before ++ ids) := by
  induction ids generalizing before with
  | nil => rw [List.append_nil, List.foldl_nil]
  | cons id rest ih =>
    rw [List.foldl_cons, without_without h, ih, List.append_assoc, List.singleton_append]

/-- and if the focus is on a window, also where none have. -/
theorem foldl_without_eq (hfocused : e.Focused) (h : (e.windows.map (·.id)).Nodup)
    (ids : List BufferId) : ids.foldl (fun e id => e.without [id]) e = e.without ids := by
  have hfold := foldl_without h [] ids
  rwa [without_nil hfocused, List.nil_append] at hfold

end Editor

namespace Applier

/-- Open buffers, none of them named twice, can be given up. -/
theorem deleteBuffers_ok (config : Config) (encoding : Encoding) {e : Editor} (disk : Disk)
    {bs : List (BufferId × Path)} (hbs : (bs.map (·.1)).Nodup)
    (hopen : ∀ b ∈ bs, ∃ other ∈ e.buffers, other.id = b.1) :
    deleteBuffers ⟨Editor.asHost, config, encoding⟩ bs ⟨e, disk⟩ =
      .ok () ⟨(bs.map (·.1)).foldl (fun e id => e.without [id]) e, disk⟩ := by
  induction bs generalizing e with
  | nil => rfl
  | cons first rest ih =>
    obtain ⟨hfirst, hrest⟩ := List.nodup_cons.1 hbs
    obtain ⟨b, hb⟩ : ∃ b, e.buffer? first.1 = some b := by
      obtain ⟨other, hother, hid⟩ := hopen first List.mem_cons_self
      exact Option.isSome_iff_exists.1 (List.find?_isSome.2 ⟨other, hother, decide_eq_true hid⟩)
    have hstep : Editor.asHost.deleteBuffer first.1 ⟨e, disk⟩ = .ok () ⟨e.without [first.1], disk⟩ :=
      HostAction.update_ok (f := (·.deleteBuffer first.1)) (w := ⟨e, disk⟩)
        (Editor.deleteBuffer_ok hb)
    rw [deleteBuffers, bind_of_ok hstep]
    -- the other buffers are open still
    refine ih hrest fun entry hentry => ?_
    obtain ⟨other, hother, hid⟩ := hopen entry (List.mem_cons_of_mem _ hentry)
    refine ⟨other, List.mem_filter.2 ⟨hother, ?_⟩, hid⟩
    have hne : entry.1 ≠ first.1 := by
      intro heq
      exact hfirst (List.mem_map.2 ⟨entry, hentry, heq⟩)
    simpa [hid] using hne

end Applier

end WorkspaceEditing
