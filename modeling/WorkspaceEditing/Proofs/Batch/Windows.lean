import WorkspaceEditing.Proofs.Batch.Run
import WorkspaceEditing.Proofs.Editor.Move

/-!
# What a batch leaves of the windows

A batch of text edits changes one buffer, and moves the cursors of the windows that show it. The
cursor of the focused window goes where its text has moved, if the configuration asks for it and
there is such a place; every other one is kept inside each text that the buffer passes through.

## Main definitions

* `Buffer.movedByBatch` — where a batch leaves the cursor of a window.

## Main results

* `Applier.applyTextEdits_adapted` — a batch changes one buffer, and moves the cursors in it.
* `Applier.applyTextEdits_moved` — where it leaves the cursor of the editor.
-/

namespace WorkspaceEditing

open Protocol

/-- Where a batch leaves the cursor of a window that shows the buffer. -/
def Buffer.movedByBatch (config : Config) (e : Encoding) (b : Buffer) (edits : List TextEdit)
    (focus : Option WindowId) (window : WindowId) (cursor : BytePosition) : BytePosition :=
  let carried := b.text.carried e (applicationOrder edits) cursor
  if config.restoreCursor ∧ focus = some window ∧
      (b.afterBatch config e edits).text.holds carried then
    carried
  else b.keptAfterBatch config e edits cursor

namespace Editor

variable {e : Editor} {id : BufferId} {b : Buffer} {win : Window}
  {move : WindowId → BytePosition → BytePosition}

theorem sameHandles_adapted (e : Editor) (b : Buffer)
    (move : WindowId → BytePosition → BytePosition) : SameHandles e (e.adapted b move) where
  buffers := (sameHandles_putBuffer e b).buffers
  windows := by
    simp only [adapted, List.map_map]
    apply List.map_congr_left
    intro w _
    by_cases hw : w.buffer = b.id <;> simp [hw]
  focus := rfl
  issued := rfl

/-- With distinct handles, a window with the focus is the focused one. -/
theorem focusedWindow?_of_mem (h : e.Numbered) (hwin : win ∈ e.windows)
    (hfocus : e.focus = some win.id) : e.focusedWindow? = some win := by
  rw [focusedWindow?, hfocus, Option.bind_some, window?_of_mem h hwin]

theorem mem_of_focusedWindow? (h : e.focusedWindow? = some win) :
    win ∈ e.windows ∧ e.focus = some win.id := by
  obtain ⟨focus, hfocus, hwin⟩ := Option.bind_eq_some_iff.1 h
  obtain rfl : win.id = focus := by simpa using List.find?_some hwin
  exact ⟨List.mem_of_find?_eq_some hwin, hfocus⟩

/-- A window on the buffer has its cursor moved. -/
theorem window?_adapted {winId : WindowId} (h : e.window? winId = some win)
    (hbuffer : win.buffer = b.id) (move : WindowId → BytePosition → BytePosition) :
    (e.adapted b move).window? winId = some { win with cursor := move win.id win.cursor } := by
  have hcomp : ((fun w => decide (w.id = winId)) ∘ fun w : Window =>
      if w.buffer = b.id then { w with cursor := move w.id w.cursor } else w) =
      fun w => decide (w.id = winId) := by
    funext w
    by_cases hw : w.buffer = b.id <;> simp [hw]
  rw [window?] at h
  rw [window?, adapted, List.find?_map, hcomp, h]
  simp [hbuffer]

/-- The focused window is the same one, and its cursor moves with the others. -/
theorem focusedWindow?_adapted (h : e.focusedWindow? = some win) (hbuffer : win.buffer = b.id)
    (move : WindowId → BytePosition → BytePosition) :
    (e.adapted b move).focusedWindow? = some { win with cursor := move win.id win.cursor } := by
  obtain ⟨focus, hfocus, hwin⟩ := Option.bind_eq_some_iff.1 h
  rw [focusedWindow?, show (e.adapted b move).focus = e.focus from rfl, hfocus, Option.bind_some,
    window?_adapted hwin hbuffer]

/-- To put the cursor of the focused window somewhere is another move of the cursors in its
buffer. -/
theorem withCursor_adapted (h : e.Numbered) (hfocus : e.focusedBuffer? = some b.id)
    (p : BytePosition) : (e.adapted b move).withCursor b p = e.adapted b fun i c =>
      if e.focus = some i ∧ b.text.holds p then p else move i c := by
  obtain ⟨win, hwin, hbuffer⟩ := Option.map_eq_some_iff.1 hfocus
  obtain ⟨hmem, hid⟩ := mem_of_focusedWindow? hwin
  have hfocused := focusedWindow?_adapted hwin hbuffer move
  rw [withCursor, hfocused]
  dsimp only
  by_cases hp : b.text.holds p = true
  · rw [if_pos hp, putWindow, adapted, adapted]
    dsimp only
    rw [List.map_map]
    congr 1
    apply List.map_congr_left
    intro w hw
    by_cases hother : w.id = win.id
    · obtain rfl := eq_of_window_id h hmem hw hother
      simp [hbuffer, hid, hp]
    · by_cases hshown : w.buffer = b.id <;> simp [hshown, hother, hid, Ne.symm hother]
  · simp [hp]

end Editor

namespace Applier

variable {w : World Editor} {id : BufferId} {b : Buffer} (config : Config) (e : Encoding)

/-- A batch applied to an open buffer changes this buffer, and moves the cursors in it. -/
theorem applyTextEdits_adapted (hn : w.host.Numbered) (h : w.host.buffer? id = some b)
    {edits : List TextEdit} (hedits : edits ≠ []) :
    applyTextEdits ⟨Editor.asHost, config, e⟩ id edits w = .ok () { w with
      host := w.host.adapted (b.afterBatch config e edits)
        (b.movedByBatch config e edits w.host.focus) } := by
  have hid : (b.afterBatch config e edits).id = id :=
    (Buffer.id_afterBatch config e b edits).trans (Editor.id_of_buffer? h)
  rw [applyTextEdits_eq config e h hedits]
  congr 2
  unfold Editor.tracked?
  by_cases htracked : config.restoreCursor = true ∧ w.host.focusedBuffer? = some id
  · obtain ⟨win, hwin, hbuffer⟩ := Option.map_eq_some_iff.1 htracked.2
    obtain ⟨hmem, hfocus⟩ := Editor.mem_of_focusedWindow? hwin
    have hcursor : w.host.cursor? = some win.cursor := by rw [Editor.cursor?, hwin]; rfl
    rw [if_pos htracked, hcursor]
    dsimp only
    rw [Editor.withCursor_adapted hn (by rw [hid, htracked.2])]
    apply Editor.adapted_congr
    intro other hother _
    by_cases hother' : w.host.focus = some other.id
    · obtain rfl : other = win :=
        Editor.eq_of_window_id hn hmem hother (Option.some.inj (hother'.symm.trans hfocus))
      simp [Buffer.movedByBatch, htracked.1, hfocus]
    · simp [Buffer.movedByBatch, hother']
  · rw [if_neg htracked]
    apply Editor.adapted_congr
    intro other hother hshown
    -- a focused window that shows the buffer would have its cursor tracked
    have hnot : ¬ (config.restoreCursor = true ∧ w.host.focus = some other.id) := by
      rintro ⟨hrestore, hfocus⟩
      refine htracked ⟨hrestore, ?_⟩
      rw [Editor.focusedBuffer?, Editor.focusedWindow?_of_mem hn hother hfocus, Option.map_some,
        hshown, hid]
    rw [Buffer.movedByBatch, if_neg fun h => hnot ⟨h.1, h.2.1⟩]

/-- Where a batch applied to the buffer in the focused window leaves the cursor of the editor. -/
theorem applyTextEdits_moved {win : Window} (hwin : w.host.focusedWindow? = some win)
    (hbuffer : w.host.buffer? win.buffer = some b) {edits : List TextEdit} (hedits : edits ≠ []) :
    ∃ w', applyTextEdits ⟨Editor.asHost, config, e⟩ win.buffer edits w = .ok () w' ∧
      w'.host.buffer? win.buffer = some (b.afterBatch config e edits) ∧
      w'.host.cursor? =
        some (b.movedByBatch config e edits (some win.id) win.id win.cursor) := by
  let changed := w.host.adapted (b.afterBatch config e edits)
    fun _ => b.keptAfterBatch config e edits
  have hshown : win.buffer = (b.afterBatch config e edits).id :=
    (Editor.id_of_buffer? hbuffer).symm.trans (Buffer.id_afterBatch config e b edits).symm
  have hchanged : changed.buffer? win.buffer = some (b.afterBatch config e edits) :=
    Editor.buffer?_adapted hbuffer hshown.symm
  have hfocused : changed.focusedWindow? =
      some { win with cursor := b.keptAfterBatch config e edits win.cursor } :=
    Editor.focusedWindow?_adapted hwin hshown _
  have hkept : changed.cursor? = some (b.keptAfterBatch config e edits win.cursor) := by
    rw [Editor.cursor?, hfocused]
    rfl
  have hcursor : w.host.cursor? = some win.cursor := by rw [Editor.cursor?, hwin]; rfl
  refine ⟨_, applyTextEdits_eq config e hbuffer hedits, ?_, ?_⟩
  · cases w.host.tracked? config win.buffer with
    | none => exact hchanged
    | some p => exact (Editor.buffer?_withCursor changed _ _ _).trans hchanged
  · have hfocus : w.host.focusedBuffer? = some win.buffer := by
      rw [Editor.focusedBuffer?, hwin]
      rfl
    unfold Buffer.movedByBatch Editor.tracked?
    dsimp only
    cases config.restoreCursor with
    | false => simpa using hkept
    | true =>
      rw [if_pos ⟨rfl, hfocus⟩, hcursor]
      dsimp only
      split_ifs with hmoved
      · exact Editor.cursor?_withCursor hfocused hmoved.2.2
      · have hlost : ¬ (b.afterBatch config e edits).text.holds
            (b.text.carried e (applicationOrder edits) win.cursor) = true :=
          fun hholds => hmoved ⟨rfl, rfl, hholds⟩
        rw [Editor.withCursor, hfocused]
        dsimp only
        rw [if_neg hlost]
        exact hkept

end Applier

end WorkspaceEditing
