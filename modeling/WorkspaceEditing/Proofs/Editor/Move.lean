import WorkspaceEditing.Apply.Files
import WorkspaceEditing.Proofs.Editor.Calls
import WorkspaceEditing.Proofs.Editor.Sound

/-!
# Buffers that move

When a file is renamed, each buffer under the old path hands its windows over to the buffer of its
new path, and is given up. If that buffer is new, then it has the text of the file; but a buffer
that is open there already is taken as it is. The cursors stay if the text is the same.

## Main definitions

* `Editor.showing` — the editor with some windows showing another buffer.
* `Editor.handOver` — the editor after a buffer has handed its windows over.

## Main results

* `Applier.exists_of_moveBuffers_cons` — how one buffer moves.
-/

namespace WorkspaceEditing

namespace Editor

variable {e e' : Editor} {b d : Buffer} {disk : Disk}

/-! ## Loading -/

/-- Whichever buffer is loaded is open and has the path, and all that were open are open still. -/
theorem exists_of_loadBuffer {path : Path} {w w' : World Editor} {id : BufferId}
    (hs : w.host.Sound) (h : loadBuffer path w = .ok id w') :
    w'.host.Sound ∧ w'.disk = w.disk ∧ (∀ b ∈ w.host.buffers, b ∈ w'.host.buffers) ∧
      ∃ d, d.id = id ∧ w'.host.buffer? d.id = some d ∧ d.path.same path = true := by
  rcases cases_of_loadBuffer h with ⟨hfind, rfl⟩ | ⟨-, rfl, text, -, rfl⟩
  · obtain ⟨d, hd, rfl⟩ := Option.map_eq_some_iff.1 hfind
    exact ⟨hs, rfl, fun _ => id, d, rfl,
      buffer?_of_mem hs.numbered (List.mem_of_find?_eq_some hd), by simpa using List.find?_some hd⟩
  · have hs' := hs.insertBuffer path text
    refine ⟨hs', rfl, fun b hb => List.mem_append_left _ hb,
      Buffer.new ⟨w.host.issued + 1⟩ path text, rfl, ?_, by simp [Buffer.new, Path.same]⟩
    exact buffer?_of_mem hs'.numbered (List.mem_append_right _ (List.mem_singleton_self _))

theorem windows_of_loadBuffer {path : Path} {w w' : World Editor} {id : BufferId}
    (h : loadBuffer path w = .ok id w') : w'.host.windows = w.host.windows := by
  rcases cases_of_loadBuffer h with ⟨-, rfl⟩ | ⟨-, -, text, -, rfl⟩
  · rfl
  · rfl

/-! ## Showing another buffer -/

/-- With distinct handles, a window among the open ones is the one that is found. -/
theorem window?_of_mem (h : e.Numbered) {win : Window} (hwin : win ∈ e.windows) :
    e.window? win.id = some win := by
  have hnodup : (e.windows.map (·.id.number)).Nodup := (List.nodup_append.1 h.nodup).2.1
  unfold window?
  cases hfind : e.windows.find? fun other => decide (other.id = win.id) with
  | none => simpa using List.find?_eq_none.1 hfind win hwin
  | some found =>
    have hid : found.id = win.id := by simpa using List.find?_some hfind
    rw [List.inj_on_of_nodup_map hnodup (List.mem_of_find?_eq_some hfind) hwin
      (congrArg WindowId.number hid)]

theorem eq_of_window_id (h : e.Numbered) {win other : Window} (hwin : win ∈ e.windows)
    (hother : other ∈ e.windows) (hid : other.id = win.id) : other = win := by
  have := window?_of_mem h hother
  rw [hid, window?_of_mem h hwin] at this
  exact (Option.some.inj this).symm

/-- The editor with some windows showing a buffer, their cursors inside its text. -/
def showing (e : Editor) (d : Buffer) (ids : List WindowId) : Editor :=
  { e with windows := e.windows.map fun win =>
      if win.id ∈ ids then { win with buffer := d.id, cursor := d.text.closest win.cursor }
      else win }

/-- The editor after a buffer has handed its windows over to another one and is given up. -/
def handOver (e : Editor) (b d : Buffer) : Editor :=
  { e with
    buffers := e.buffers.filter fun other => other.id ≠ b.id
    windows := e.windows.map fun win =>
      if win.buffer = b.id then { win with buffer := d.id, cursor := d.text.closest win.cursor }
      else win }

theorem mem_handOver_of_ne {win : Window} (hwin : win ∈ e.windows) (hshown : win.buffer ≠ b.id) :
    win ∈ (e.handOver b d).windows :=
  List.mem_map.2 ⟨win, hwin, if_neg hshown⟩

theorem mem_handOver {win : Window} (hwin : win ∈ e.windows) (hshown : win.buffer = b.id) :
    { win with buffer := d.id, cursor := d.text.closest win.cursor } ∈ (e.handOver b d).windows :=
  List.mem_map.2 ⟨win, hwin, if_pos hshown⟩

/-- In an editor in order, only the window that comes to show the buffer has its cursor moved. -/
theorem setWindowBuffer_ok (hs : e.Sound) (hd : e.buffer? d.id = some d) {win : Window}
    (hwin : win ∈ e.windows) : e.setWindowBuffer win.id d.id = .ok (e.showing d [win.id]) := by
  have hset : e.setWindowBuffer win.id d.id =
      .ok ((e.putWindow { win with buffer := d.id }).clampCursors d) := by
    unfold setWindowBuffer buffer window
    rw [hd, window?_of_mem hs.numbered hwin]
    rfl
  rw [hset, showing, clampCursors, putWindow, List.map_map]
  congr 2
  apply List.map_congr_left
  intro other hother
  by_cases hid : other.id = win.id
  · simp [eq_of_window_id hs.numbered hwin hother hid]
  · by_cases hshown : other.buffer = d.id
    · obtain ⟨shown, hfound, hcursor⟩ := hs.shows other hother
      obtain rfl : d = shown := by rw [hshown, hd] at hfound; exact Option.some.inj hfound
      simp only [hid, hshown, Text.closest_of_has hcursor, if_true, if_false, List.mem_singleton,
        Function.comp_apply]
      rw [← hshown]
    · simp [hid, hshown]

theorem showing_nil (e : Editor) (d : Buffer) : e.showing d [] = e := by simp [showing]

theorem showing_cons (e : Editor) (d : Buffer) (id : WindowId) (ids : List WindowId) :
    (e.showing d [id]).showing d ids = e.showing d (id :: ids) := by
  simp only [showing, List.map_map]
  congr 1
  apply List.map_congr_left
  intro win _
  by_cases hid : win.id = id <;> by_cases hids : win.id ∈ ids <;>
    simp [hid, hids, Text.closest_of_has (d.text.has_closest win.cursor)]

theorem sameHandles_showing (e : Editor) (d : Buffer) (ids : List WindowId) :
    SameHandles e (e.showing d ids) where
  buffers := rfl
  windows := by
    simp only [showing, List.map_map]
    apply List.map_congr_left
    intro win _
    by_cases hid : win.id ∈ ids <;> simp [hid]
  focus := rfl
  issued := rfl

theorem mem_windowsShowing (h : e.Numbered) {win : Window} (hwin : win ∈ e.windows) :
    win.id ∈ e.windowsShowing b.id ↔ win.buffer = b.id := by
  constructor
  · intro hmem
    obtain ⟨other, hother, hid⟩ := List.mem_map.1 hmem
    obtain ⟨hother, hshown⟩ := List.mem_filter.1 hother
    obtain rfl := eq_of_window_id h hwin hother hid
    exact of_decide_eq_true hshown
  · intro hshown
    exact List.mem_map_of_mem (List.mem_filter.2 ⟨hwin, decide_eq_true hshown⟩)

theorem windows_showing (h : e.Numbered) :
    (e.showing d (e.windowsShowing b.id)).windows = (e.handOver b d).windows := by
  apply List.map_congr_left
  intro win hwin
  simp only [mem_windowsShowing h hwin]

/-- No window closes when a buffer is given up that has handed its windows over. -/
theorem deleteBuffer_showing (hs : e.Sound) (hb : e.buffer? b.id = some b) (hne : d.id ≠ b.id) :
    (e.showing d (e.windowsShowing b.id)).deleteBuffer b.id = .ok (e.handOver b d) := by
  obtain ⟨e', he'⟩ : ∃ e', e' = e.showing d (e.windowsShowing b.id) := ⟨_, rfl⟩
  have hsame : SameHandles e e' := he' ▸ sameHandles_showing e d _
  have hwindows : e'.windows = (e.handOver b d).windows := he' ▸ windows_showing hs.numbered
  have hkept : (e'.windows.filter fun win => win.buffer ≠ b.id) = e'.windows := by
    rw [List.filter_eq_self]
    intro win hwin
    obtain ⟨old, hold, rfl⟩ := List.mem_map.1 (hwindows ▸ hwin)
    by_cases hshown : old.buffer = b.id <;> simp [hshown, hne]
  have hbuffer : e'.buffer b.id = .ok b := by
    rw [he']
    show e.buffer b.id = .ok b
    rw [buffer, hb]
  obtain ⟨e'', hdelete⟩ : ∃ e'', e'.deleteBuffer b.id = .ok e'' := by
    rw [deleteBuffer, hbuffer]
    exact ⟨_, rfl⟩
  obtain ⟨hbuffers, hleft, hissued, hfocus⟩ := cases_of_deleteBuffer hdelete
  rw [hkept] at hleft
  have hstays : e''.focus = e.focus := by
    rw [hfocus, hleft, ← hsame.focus]
    cases hold : e'.focus with
    | none => rfl
    | some id =>
      obtain ⟨win, hwin, hid⟩ := (hsame.focused hs.focused).mem id hold
      exact if_pos (List.any_eq_true.2 ⟨win, hwin, decide_eq_true hid⟩)
  obtain ⟨buffers, windows, focus, issued⟩ := e''
  rw [← he', hdelete]
  congr 1
  simp only at hbuffers hleft hissued hstays
  rw [hbuffers, hleft, hissued, hstays, hwindows, he']
  rfl

theorem Sound.showing (hs : e.Sound) (hd : e.buffer? d.id = some d) (ids : List WindowId) :
    (e.showing d ids).Sound where
  shows win hwin := by
    obtain ⟨old, hold, rfl⟩ := List.mem_map.1 hwin
    by_cases hid : old.id ∈ ids
    · simp only [hid, if_true]
      exact ⟨d, hd, d.text.has_closest old.cursor⟩
    · simp only [hid, if_false]
      exact hs.shows old hold
  focused := (sameHandles_showing e d ids).focused hs.focused
  numbered := (sameHandles_showing e d ids).numbered hs.numbered

theorem Sound.handOver (hs : e.Sound) (hd : e.buffer? d.id = some d) (hb : e.buffer? b.id = some b)
    (hne : d.id ≠ b.id) : (e.handOver b d).Sound :=
  (hs.showing hd _).deleteBuffer (deleteBuffer_showing hs hb hne)

end Editor

namespace Applier

variable {e : Editor} {disk : Disk} {config : Config} {encoding : Encoding} {b d : Buffer}

theorem showIn_ok (hs : e.Sound) (hd : e.buffer? d.id = some d) {ids : List WindowId}
    (hids : ∀ id ∈ ids, ∃ win ∈ e.windows, win.id = id) :
    showIn ⟨Editor.asHost, config, encoding⟩ d.id ids ⟨e, disk⟩ =
      .ok () ⟨e.showing d ids, disk⟩ := by
  induction ids generalizing e with
  | nil => rw [Editor.showing_nil]; rfl
  | cons id rest ih =>
    obtain ⟨win, hwin, rfl⟩ := hids id List.mem_cons_self
    have hset := Editor.setWindowBuffer_ok hs hd hwin
    have hstep : Editor.asHost.setWindowBuffer win.id d.id ⟨e, disk⟩ =
        .ok () ⟨e.showing d [win.id], disk⟩ :=
      HostAction.update_ok (f := (·.setWindowBuffer win.id d.id)) (w := ⟨e, disk⟩) hset
    rw [showIn, bind_of_ok hstep, ih (hs.setWindowBuffer hset) hd, Editor.showing_cons]
    intro id hid
    obtain ⟨other, hother, rfl⟩ := hids id (List.mem_cons_of_mem _ hid)
    have hmem := List.mem_map_of_mem (f := Window.id) hother
    rw [← (Editor.sameHandles_showing e d [win.id]).windows] at hmem
    exact List.mem_map.1 hmem

/-- Where buffers are moved from one path to another, the first is opened at its place, hands its
windows over and is given up, before the others are moved. -/
theorem exists_of_moveBuffers_cons {oldPath newPath suffix : Path} {rest : List (BufferId × Path)}
    {w' : World Editor} (hs : e.Sound) (hb : b ∈ e.buffers)
    (hsuffix : b.path.stripPrefix? oldPath = some suffix)
    (hmoves : b.path.same (newPath.join suffix) = false)
    (h : moveBuffers ⟨Editor.asHost, config, encoding⟩ oldPath newPath ((b.id, b.path) :: rest)
      ⟨e, disk⟩ = .ok () w') :
    ∃ d e', Editor.loadBuffer (newPath.join suffix) ⟨e, disk⟩ = .ok d.id ⟨e', disk⟩ ∧
      e'.buffer? d.id = some d ∧ d.id ≠ b.id ∧ (e'.handOver b d).Sound ∧
      moveBuffers ⟨Editor.asHost, config, encoding⟩ oldPath newPath rest
        ⟨e'.handOver b d, disk⟩ = .ok () w' := by
  simp only [moveBuffers, hsuffix] at h
  obtain ⟨id, ⟨e', disk'⟩, hload, hrest⟩ := exists_of_bind_ok h
  obtain ⟨hs', hdisk, hstays, d, rfl, hd, hpath⟩ := Editor.exists_of_loadBuffer hs hload
  obtain rfl : disk' = disk := hdisk
  have hb' : e'.buffer? b.id = some b := Editor.buffer?_of_mem hs'.numbered (hstays b hb)
  have hne : d.id ≠ b.id := by
    intro heq
    rw [heq, hb'] at hd
    rw [Option.some.inj hd, hpath] at hmoves
    cases hmoves
  have hwindows : Editor.asHost.windowsShowing b.id ⟨e', disk'⟩ =
      .ok (e'.windowsShowing b.id) ⟨e', disk'⟩ := rfl
  have hids : ∀ id ∈ e'.windowsShowing b.id, ∃ win ∈ e'.windows, win.id = id := by
    intro id hid
    obtain ⟨win, hwin, rfl⟩ := List.mem_map.1 hid
    exact ⟨win, List.mem_of_mem_filter hwin, rfl⟩
  have hshow : showIn ⟨Editor.asHost, config, encoding⟩ d.id (e'.windowsShowing b.id) ⟨e', disk'⟩ =
      .ok () ⟨e'.showing d (e'.windowsShowing b.id), disk'⟩ := showIn_ok hs' hd hids
  have hdelete : Editor.asHost.deleteBuffer b.id ⟨e'.showing d (e'.windowsShowing b.id), disk'⟩ =
      .ok () ⟨e'.handOver b d, disk'⟩ :=
    HostAction.update_ok (f := (·.deleteBuffer b.id))
      (w := ⟨e'.showing d (e'.windowsShowing b.id), disk'⟩)
      (Editor.deleteBuffer_showing hs' hb' hne)
  rw [bind_of_ok hwindows, bind_of_ok hshow, bind_of_ok hdelete] at hrest
  exact ⟨d, e', hload, hd, hne, hs'.handOver hd hb' hne, hrest⟩

end Applier

end WorkspaceEditing
