import WorkspaceEditing.Proofs.Disk.Revisit
import WorkspaceEditing.Proofs.Editor.Deletion
import WorkspaceEditing.Proofs.Session.Invariant
import WorkspaceEditing.Proofs.Session.Rename

/-!
# Deleting in a session

In every session a deletion that is applied gives up the buffers at the path and beneath it, component
by component, and no other. Their windows are closed with them, whichever of them the focus passes
through, and it ends where it was, or on the window that was opened first among those that are left.
That this is the one with the smallest number rests on the windows being kept in the order in which
they were opened. Nothing is left at the path.

## Main definitions

* `Editor.WindowsInOrder` — windows stand in the order of their numbers.
* `Editor.Bereft` — the editor after the buffers at a path and beneath it have been given up.

## Main results

* `Session.windowsInOrder_run` — windows stand in order in every session.
* `Applier.deleteFile_bereft` — what an applied deletion does to the editor and to the file tree.
-/

namespace WorkspaceEditing

open Protocol

namespace Editor

variable {e e' : Editor} {id : BufferId} {root : Path}

/-! ## Windows in order -/

/-- The windows stand in the order of their numbers, and all their numbers have been given out. -/
structure WindowsInOrder (e : Editor) : Prop where
  pairwise : (e.windows.map (·.id)).Pairwise fun id other => id.number < other.number
  issued : ∀ id ∈ e.windows.map (·.id), id.number ≤ e.issued

namespace WindowsInOrder

variable (h : e.WindowsInOrder)
include h

theorem of_sublist (hsub : (e'.windows.map (·.id)).Sublist (e.windows.map (·.id)))
    (hissued : e'.issued = e.issued) : e'.WindowsInOrder where
  pairwise := h.pairwise.sublist hsub
  issued id hid := hissued ▸ h.issued id (hsub.subset hid)

theorem of_sameHandles (hsame : SameHandles e e') : e'.WindowsInOrder :=
  h.of_sublist (hsame.windows ▸ List.Sublist.refl _) hsame.issued

/-- A window that is opened has the greatest number. -/
theorem openWindow {win : WindowId} (hopen : e.openWindow id = .ok (win, e')) :
    e'.WindowsInOrder := by
  obtain ⟨b, -, -, hwindows, -, hissued⟩ := cases_of_openWindow hopen
  constructor
  · rw [hwindows, List.map_append, List.pairwise_append]
    refine ⟨h.pairwise, List.pairwise_singleton _ _, fun id hid other hother => ?_⟩
    obtain rfl := List.mem_singleton.1 hother
    exact Nat.lt_succ_of_le (h.issued id hid)
  · intro id hid
    rw [hwindows, List.map_append, List.mem_append] at hid
    rw [hissued]
    rcases hid with hid | hid
    · exact Nat.le_succ_of_le (h.issued id hid)
    · obtain rfl := List.mem_singleton.1 hid
      exact Nat.le_refl _

theorem retouched (hput : Retouched id e e') : e'.WindowsInOrder := by
  obtain ⟨b, b', -, rfl, -⟩ := hput
  exact h.of_sameHandles (sameHandles_putBuffer e b')

theorem deleteBuffer (hdelete : e.deleteBuffer id = .ok e') : e'.WindowsInOrder := by
  obtain ⟨-, hwindows, hissued, -⟩ := cases_of_deleteBuffer hdelete
  refine h.of_sublist ?_ hissued
  rw [hwindows]
  exact List.filter_sublist.map _

theorem nodup : (e.windows.map (·.id)).Nodup :=
  h.pairwise.imp fun hlt heq => absurd (congrArg WindowId.number heq) (Nat.ne_of_lt hlt)

/-- The first window has the smallest number. -/
theorem le_of_mem {first : Window} {rest : List Window}
    (hwindows : e.windows = first :: rest) {win : Window} (hwin : win ∈ e.windows) :
    first.id.number ≤ win.id.number := by
  have hpairwise := h.pairwise
  rw [hwindows, List.map_cons, List.pairwise_cons] at hpairwise
  rcases List.mem_cons.1 (hwindows ▸ hwin) with rfl | hrest
  · exact Nat.le_refl _
  · exact Nat.le_of_lt (hpairwise.1 win.id (List.mem_map_of_mem hrest))

end WindowsInOrder

end Editor

namespace Session

theorem invariant_windowsInOrder : Invariant Editor.WindowsInOrder where
  insertBuffer e path text h := ⟨h.pairwise, fun id hid => Nat.le_succ_of_le (h.issued id hid)⟩
  openWindow e id win e' hopen h := h.openWindow hopen
  setFixesEndOfLine e id fixes e' hset h := h.retouched (Editor.retouched_setFixesEndOfLine hset)
  setListed e id e' hset h := h.retouched (Editor.retouched_setListed hset)
  setText e id r newLines e' hset h := by
    obtain ⟨b, changed, -, -, rfl⟩ := Editor.cases_of_setText hset
    exact h.of_sameHandles
      ((Editor.sameHandles_putBuffer e changed).trans (Editor.sameHandles_clampCursors _ changed))
  setCursor e p e' hset h := by
    rcases Editor.cases_of_setCursor hset with rfl | ⟨win, b, -, -, -, rfl⟩
    · exact h
    · exact h.of_sameHandles (Editor.sameHandles_putWindow e _)
  setMarks e id ms e' hset h := h.retouched (Editor.retouched_setMarks hset)
  deleteBuffer e id e' hdelete h := h.deleteBuffer hdelete
  setWindowBuffer e win id e' hset h := by
    obtain ⟨w, b, -, rfl⟩ := Editor.cases_of_setWindowBuffer hset
    exact h.of_sameHandles
      ((Editor.sameHandles_putWindow e _).trans (Editor.sameHandles_clampCursors _ b))

/-- In every session the windows stand in the order of their numbers. -/
theorem windowsInOrder_run (disk : Disk) (steps : List Step) :
    (run ⟨.empty, disk⟩ steps).host.WindowsInOrder :=
  invariant_windowsInOrder.run steps ⟨List.Pairwise.nil, by simp [Editor.empty]⟩

end Session

namespace Editor

variable {e : Editor} {root : Path}

/-! ## The buffers beneath a path -/

/-- What becomes of an editor when the buffers at a path and beneath it are given up: the other buffers
are as they were, and so are the windows that show them; no handle is given out; and the focus stays if
its window is left, and is otherwise on the window with the smallest number, or nowhere if no window is
left. -/
structure Bereft (root : Path) (e e' : Editor) : Prop where
  buffers : e'.buffers = e.buffers.filter fun b => ¬ root.components <+: b.path.components
  windows : e'.windows = e.windows.filter fun win => ∃ b ∈ e'.buffers, b.id = win.buffer
  issued : e'.issued = e.issued
  focus_stays : ∀ win ∈ e'.windows, e.focus = some win.id → e'.focus = some win.id
  focus_moves : (∀ win ∈ e'.windows, e.focus ≠ some win.id) →
    (e'.windows = [] ∧ e'.focus = none) ∨
      ∃ win ∈ e'.windows, e'.focus = some win.id ∧
        ∀ other ∈ e'.windows, win.id.number ≤ other.id.number

theorem startsWith_iff_components {b : Buffer} :
    b.path.startsWith root = true ↔ root.components <+: b.path.components :=
  List.isPrefixOf_iff_prefix

/-- To give up the buffers at a path and beneath it is to give up all of them at once. -/
theorem bereft_without (hs : e.Sound) (horder : e.WindowsInOrder) (root : Path) :
    e.Bereft root (e.without ((e.buffersUnder root).map (·.id))) := by
  obtain ⟨e', he'⟩ : ∃ e', e' = e.without ((e.buffersUnder root).map (·.id)) := ⟨_, rfl⟩
  -- with different handles, a buffer is given up if and only if it is at the path or beneath it
  have hgiven {b : Buffer} (hb : b ∈ e.buffers) :
      b.id ∈ (e.buffersUnder root).map (·.id) ↔ root.components <+: b.path.components := by
    rw [← startsWith_iff_components, List.mem_map]
    constructor
    · rintro ⟨other, hother, hid⟩
      obtain ⟨hother, hunder⟩ := mem_buffersUnder.1 hother
      rwa [hs.numbered.eq_of_id hb hother hid.symm]
    · exact fun hunder => ⟨b, mem_buffersUnder.2 ⟨hb, hunder⟩, rfl⟩
  have hbuffers : e'.buffers = e.buffers.filter fun b => ¬ root.components <+: b.path.components := by
    rw [he']
    refine List.filter_congr fun b hb => ?_
    simp only [hgiven hb]
  have hwindows : e'.windows = e.windows.filter fun win => ∃ b ∈ e'.buffers, b.id = win.buffer := by
    rw [hbuffers, he']
    refine List.filter_congr fun win hwin => ?_
    obtain ⟨b, hb, -⟩ := hs.shows win hwin
    have hid : b.id = win.buffer := id_of_buffer? hb
    have hmem : b ∈ e.buffers := List.mem_of_find?_eq_some hb
    rw [← hid, decide_eq_decide, hgiven hmem]
    constructor
    · exact fun hleft => ⟨b, List.mem_filter.2 ⟨hmem, decide_eq_true hleft⟩, rfl⟩
    · rintro ⟨other, hother, heq⟩
      obtain ⟨hother, hleft⟩ := List.mem_filter.1 hother
      rw [← hs.numbered.eq_of_id hother hmem heq]
      exact of_decide_eq_true hleft
  rw [← he']
  have hfocus : e'.focus = refocus e'.windows e.focus := he' ▸ rfl
  have horder' : e'.WindowsInOrder := by
    have hsub : (e'.windows.map (·.id)).Sublist (e.windows.map (·.id)) := by
      rw [hwindows]
      exact List.filter_sublist.map _
    exact horder.of_sublist hsub (he' ▸ rfl)
  refine ⟨hbuffers, hwindows, he' ▸ rfl, ?_, ?_⟩
  · intro win hwin hold
    rw [hfocus, hold, refocus_of_mem hwin]
  · intro hgone
    cases hold : e.focus with
    | none =>
      have hnone : e'.windows = [] := by
        rw [hwindows, hs.focused.none_iff.1 hold, List.filter_nil]
      exact .inl ⟨hnone, by rw [hfocus, hold]; rfl⟩
    | some id =>
      rw [hold] at hgone
      have hmoved : e'.focus = e'.windows.head?.map (·.id) := by
        rw [hfocus, hold]
        exact refocus_of_forall_ne fun win hwin heq => hgone win hwin (congrArg some heq.symm)
      cases hleft : e'.windows with
      | nil => exact .inl ⟨rfl, by rw [hmoved, hleft]; rfl⟩
      | cons first rest =>
        refine .inr ⟨first, List.mem_cons_self, by rw [hmoved, hleft]; rfl, fun other hother => ?_⟩
        exact horder'.le_of_mem hleft (hleft ▸ hother)

end Editor

namespace Applier

variable {config : Config} {encoding : Encoding} {change : DeleteFile} {w w' : World Editor}
  {disk₀ : Disk} {steps : List Session.Step}

/-! ## Deletions that are applied -/

/-- The buffers at a path or beneath it can be given up. -/
theorem deleteBuffers_under (config : Config) (encoding : Encoding)
    (hids : (w.host.buffers.map (·.id)).Nodup) (root : Path) :
    deleteBuffers ⟨Editor.asHost, config, encoding⟩
      ((w.host.buffersUnder root).map fun b => (b.id, b.path)) w =
        .ok () { w with
          host := ((w.host.buffersUnder root).map (·.id)).foldl (fun e id => e.without [id])
            w.host } := by
  have hmap : ((w.host.buffersUnder root).map fun b => (b.id, b.path)).map (·.1) =
      (w.host.buffersUnder root).map (·.id) := List.map_map
  rw [← hmap]
  refine deleteBuffers_ok config encoding w.disk ?_ fun entry hentry => ?_
  · rw [hmap]
    exact hids.sublist (List.filter_sublist.map _)
  · obtain ⟨b, hb, rfl⟩ := List.mem_map.1 hentry
    exact ⟨b, (Editor.mem_buffersUnder.1 hb).1, rfl⟩

/-- A deletion that does not fail is skipped and does nothing, or it is applied, has taken away what
stood at its path, and then gives up the buffers there and beneath it. -/
theorem cases_of_deleteFile {status : ChangeStatus}
    (h : deleteFile ⟨Editor.asHost, config, encoding⟩ change w = .ok status w') :
    ∃ path, change.uri.toPath? = some path ∧
      ((status = .skipped .missing ∧ w' = w) ∨
        status = .applied ∧ ∃ disk,
          DiskAction.remove path change.recursive w.disk = .ok () disk ∧
            deleteBuffers ⟨Editor.asHost, config, encoding⟩
              ((w.host.buffersUnder path).map fun b => (b.id, b.path)) ⟨w.host, disk⟩ =
                .ok () w') := by
  obtain ⟨path, w₁, hfound, h⟩ := exists_of_bind_ok h
  obtain ⟨present, w₂, hlook, h⟩ := exists_of_bind_ok h
  obtain ⟨hpath, rfl⟩ := toPath?_of_pathOf hfound
  cases hlook
  split_ifs at h
  · cases h
    exact ⟨path, hpath, .inl ⟨rfl, rfl⟩⟩
  · cases h
  · obtain ⟨_, w₃, hremove, h⟩ := exists_of_bind_ok h
    obtain ⟨affected, w₄, hunder, h⟩ := exists_of_bind_ok h
    obtain ⟨_, w₅, hdelete, hpure⟩ := exists_of_bind_ok h
    obtain ⟨disk, hdisk, rfl⟩ := ApplyAction.ok_of_onDisk hremove
    rw [buffersUnder_ok] at hunder
    cases hunder
    cases hpure
    exact ⟨path, hpath, .inr ⟨rfl, disk, hdisk, ApplyAction.ok_of_onHost hdelete⟩⟩

/-- In every session, a deletion that is applied gives up exactly the buffers whose path is the deleted
one or lies beneath it, component by component, and closes exactly the windows that show them; all
other buffers and windows are as they were, and the focus goes, if its window is closed, to the one
with the smallest number among those that are left. Whatever links the file tree has, the path leads
nowhere afterwards; and in a tree without links, if the path never goes up, nothing stands at its names
or beneath them. -/
theorem deleteFile_bereft (hw : Session.run ⟨.empty, disk₀⟩ steps = w)
    (happlied : deleteFile ⟨Editor.asHost, config, encoding⟩ change w = .ok .applied w') :
    ∃ path, change.uri.toPath? = some path ∧ w.host.Bereft path w'.host ∧
      (∃ cause, w'.disk.status path = .error cause) ∧
      (∃ cause, w'.disk.linkStatus path = .error cause) ∧
      (w.disk.IsPlain → path.IsDirect → ∀ rest, w'.disk.get? (path.names ++ rest) = none) := by
  have hs : w.host.Sound := hw ▸ Session.hostSound_run disk₀ steps
  have horder : w.host.WindowsInOrder := hw ▸ Session.windowsInOrder_run disk₀ steps
  obtain ⟨path, hpath, ⟨hskipped, -⟩ | ⟨-, disk, hremove, hdelete⟩⟩ :=
    cases_of_deleteFile happlied
  · cases hskipped
  have hrun := deleteBuffers_under config encoding (w := ⟨w.host, disk⟩) hs.numbered.nodup_ids path
  cases hrun.symm.trans hdelete
  obtain ⟨-, -, hnowhere⟩ := DiskAction.leadsNowhere_of_remove hremove
  have hhost := Editor.foldl_without_eq hs.focused horder.nodup
    ((w.host.buffersUnder path).map (·.id))
  refine ⟨path, hpath, ?_, hnowhere.status, hnowhere.linkStatus, fun hplain hdirect rest => ?_⟩
  · exact hhost ▸ Editor.bereft_without hs horder path
  · exact DiskAction.get?_of_remove hplain hdirect hremove rest

/-- Two buffers are open, one of them beneath a directory and one at a path that only begins with the
same letters; the first is shown in two windows. With the directory the focus moves past the window
that is closed as well. -/
theorem deleteFile_bereft_directory :
    let disk₀ : Disk := ⟨[([[0x68]], .dir), ([[0x68], [0x61]], .file ⟨#[0x31]⟩)]⟩
    let w := Session.run ⟨.empty, disk₀⟩ [.editor (.insertBuffer (.ofString "/h/a") ['1']),
      .editor (.insertBuffer (.ofString "/hx") ['2']), .editor (.openWindow ⟨1⟩),
      .editor (.openWindow ⟨2⟩), .editor (.openWindow ⟨1⟩)]
    let change : DeleteFile := ⟨⟨"file:///h".toList, by decide +kernel⟩, true, false⟩
    let a : Applier Editor := ⟨Editor.asHost, .standard, .utf16⟩
    let w' := left (a.deleteFile change w)
    a.deleteFile change w = .ok .applied w' ∧
      ∃ path, change.uri.toPath? = some path ∧ w.host.Bereft path w'.host ∧
        (∃ cause, w'.disk.status path = .error cause) ∧
        (∃ cause, w'.disk.linkStatus path = .error cause) ∧
        (w.disk.IsPlain → path.IsDirect → ∀ rest, w'.disk.get? (path.names ++ rest) = none) := by
  intro disk₀ w change a w'
  have happlied : a.deleteFile change w = .ok .applied w' :=
    ApplyAction.eq_ok_of_result (by decide +kernel)
  exact ⟨happlied, deleteFile_bereft rfl happlied⟩

end Applier

end WorkspaceEditing
