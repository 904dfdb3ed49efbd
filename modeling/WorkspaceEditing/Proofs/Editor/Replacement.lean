import WorkspaceEditing.Editor.Operations
import WorkspaceEditing.Proofs.Text.Extent

/-!
# Replacing text in the editor

All changes of a buffer's text come down to one operation, the replacement of a range by lines. Here
it is a function of the text, of the buffer and of the editor, and the calls of the editor as a host
are read as such functions. A replacement that fits a text is carried out, and touches nothing but
the buffer, its marks, and the cursors in it.

## Main definitions

* `Replacement` — a range and the lines that take its place.
* `Replacement.Fits` — the range lies between two places of a text.
* `Text.amended`, `Buffer.amended`, `Editor.amended` — what a replacement makes of each.
* `Editor.adapted` — another state of one buffer, with the cursors in it moved.
* `Editor.Touches` — what a change of one buffer leaves as it was.

## Main results

* `Editor.setText_eq` — the call that replaces text carries out every replacement that fits.
* `Editor.touches_adapted` — changes of one buffer touch that buffer only.
* `Editor.adapted_comm` — changes of two buffers may be made in either order.
-/

namespace WorkspaceEditing

/-- A range of a text, and the lines that take its place. -/
structure Replacement where
  range : ByteRange
  newLines : List Text

/-- The range lies between two places of the text. -/
def Replacement.Fits (r : Replacement) (t : Text) : Prop :=
  ∃ s m x, t = s ++ m ++ x ∧ r.range = ⟨s.extent, (s ++ m).extent⟩

/-- The text with a replacement carried out, if it fits. -/
def Text.amended (t : Text) (r : Replacement) : Text :=
  (Text.replace? r.range (Text.ofLines r.newLines) t).getD t

/-- The buffer with a replacement carried out, and its marks moved along. -/
def Buffer.amended (b : Buffer) (r : Replacement) : Buffer :=
  { b with
    text := b.text.amended r
    marks := b.marks.followed r.range (max r.newLines.length 1) (b.text.amended r).lineCount }

/-- The editor with a replacement carried out in a buffer, and the cursors in it kept inside. -/
def Editor.amended (e : Editor) (b : Buffer) (r : Replacement) : Editor :=
  (e.putBuffer (b.amended r)).clampCursors (b.amended r)

/-- The editor with another state of one of its buffers, and with the cursors of the windows that
show it moved. -/
def Editor.adapted (e : Editor) (b : Buffer) (move : WindowId → BytePosition → BytePosition) :
    Editor :=
  { e.putBuffer b with
    windows := e.windows.map fun w =>
      if w.buffer = b.id then { w with cursor := move w.id w.cursor } else w }

namespace Text

/-- What lies between the two places gives way to the new lines. -/
theorem amended_eq {r : Replacement} {s m : Text} (h : r.range = ⟨s.extent, (s ++ m).extent⟩)
    (x : Text) : (s ++ m ++ x).amended r = s ++ ofLines r.newLines ++ x := by
  rw [amended, h, replace?_eq_some_iff.2 ⟨s, m, x, rfl, rfl, rfl⟩]
  rfl

end Text

theorem Buffer.replace?_eq {b : Buffer} {r : Replacement} (h : r.Fits b.text) :
    b.replace? r.range r.newLines = some (b.amended r) := by
  obtain ⟨s, m, x, ht, hr⟩ := h
  have htext : Text.replace? r.range (Text.ofLines r.newLines) b.text =
      some (s ++ Text.ofLines r.newLines ++ x) :=
    Text.replace?_eq_some_iff.2 ⟨s, m, x, ht, hr, rfl⟩
  simp only [Buffer.replace?, Buffer.amended, Text.amended, htext]
  rfl

namespace Editor

variable {e : Editor} {id : BufferId} {b : Buffer}

/-! ## Looking up buffers -/

theorem id_of_buffer? (h : e.buffer? id = some b) : b.id = id := by
  simpa using List.find?_some h

theorem buffer_eq (h : e.buffer? id = some b) : e.buffer id = .ok b := by rw [buffer, h]

/-- A buffer that is put is the one that is found. -/
theorem buffer?_putBuffer {b' : Buffer} (h : e.buffer? id = some b) (hid : b'.id = id) :
    (e.putBuffer b').buffer? id = some b' := by
  subst hid
  simp only [buffer?, putBuffer, List.find?_map]
  have hcomp : ((fun b => decide (b.id = b'.id)) ∘
      fun other => if other.id = b'.id then b' else other) =
      fun other => decide (other.id = b'.id) := by
    funext other
    by_cases ho : other.id = b'.id <;> simp [ho]
  rw [hcomp, show e.buffers.find? (fun other => decide (other.id = b'.id)) = some b from h]
  simp [id_of_buffer? h]

/-- A window that is put in place of the focused one is the focused one. -/
theorem focusedWindow?_putWindow {win win' : Window} (h : e.focusedWindow? = some win)
    (hid : win'.id = win.id) : (e.putWindow win').focusedWindow? = some win' := by
  obtain ⟨focus, hfocus, hwin⟩ := Option.bind_eq_some_iff.1 h
  obtain rfl : win.id = focus := by simpa using List.find?_some hwin
  have hcomp : ((fun w => decide (w.id = win.id)) ∘
      fun other => if other.id = win'.id then win' else other) =
      fun other => decide (other.id = win.id) := by
    funext other
    by_cases ho : other.id = win.id <;> simp [ho, hid]
  rw [focusedWindow?, show (e.putWindow win').focus = e.focus from rfl, hfocus, Option.bind_some,
    window?, putWindow, List.find?_map, hcomp,
    show e.windows.find? (fun other => decide (other.id = win.id)) = some win from hwin]
  simp [hid]

/-! ## What a change of one buffer touches -/

/-- Everything but one buffer, and the cursors in the windows that show it, is as it was. -/
structure Touches (id : BufferId) (e e' : Editor) : Prop where
  buffers : ∃ f : Buffer → Buffer, e'.buffers = e.buffers.map f ∧
    ∀ b, (f b).id = b.id ∧ (b.id ≠ id → f b = b)
  windows : ∃ f : Window → Window, e'.windows = e.windows.map f ∧
    ∀ w, (f w).id = w.id ∧ (f w).buffer = w.buffer ∧ (w.buffer ≠ id → f w = w)
  focus : e'.focus = e.focus
  issued : e'.issued = e.issued

namespace Touches

variable {e' : Editor}

theorem refl (id : BufferId) (e : Editor) : Touches id e e where
  buffers := ⟨fun b => b, by simp, by simp⟩
  windows := ⟨fun w => w, by simp, by simp⟩
  focus := rfl
  issued := rfl

/-- The focused window is the same one, and shows the same buffer. -/
theorem focusedWindow? (h : Touches id e e') :
    ∃ f : Window → Window, e'.focusedWindow? = e.focusedWindow?.map f ∧
      ∀ w, (f w).id = w.id ∧ (f w).buffer = w.buffer ∧ (w.buffer ≠ id → f w = w) := by
  obtain ⟨f, hf, hfw⟩ := h.windows
  refine ⟨f, ?_, hfw⟩
  rw [Editor.focusedWindow?, Editor.focusedWindow?, h.focus]
  cases e.focus with
  | none => rfl
  | some focus =>
    simp only [Option.bind_some, Editor.window?, hf, List.find?_map]
    congr 2
    funext w
    simp [(hfw w).1]

theorem focusedBuffer? (h : Touches id e e') : e'.focusedBuffer? = e.focusedBuffer? := by
  obtain ⟨f, hf, hfw⟩ := h.focusedWindow?
  simp only [Editor.focusedBuffer?, hf, Option.map_map]
  congr 1
  funext w
  exact (hfw w).2.1

end Touches

/-! ## Changing one buffer -/

section

variable {b' : Buffer} {move move' : WindowId → BytePosition → BytePosition}

/-- Putting a buffer moves no cursor. -/
theorem putBuffer_eq (e : Editor) (b : Buffer) : e.putBuffer b = e.adapted b fun _ c => c := by
  simp [adapted, putBuffer]

theorem amended_eq (e : Editor) (b : Buffer) (r : Replacement) :
    e.amended b r = e.adapted (b.amended r) fun _ => (b.text.amended r).closest := rfl

/-- The later of two states of a buffer is left, and the cursors move twice. -/
theorem adapted_adapted (e : Editor) (hid : b'.id = b.id) :
    (e.adapted b move).adapted b' move' = e.adapted b' fun i c => move' i (move i c) := by
  simp only [adapted, putBuffer, List.map_map]
  congr 1
  · apply List.map_congr_left
    intro other _
    by_cases ho : other.id = b.id <;> simp [ho, hid]
  · apply List.map_congr_left
    intro w _
    by_cases hw : w.buffer = b.id <;> simp [hw, hid]

/-- Changes of two buffers do not meet. -/
theorem adapted_comm (e : Editor) (hid : b.id ≠ b'.id) :
    (e.adapted b move).adapted b' move' = (e.adapted b' move').adapted b move := by
  simp only [adapted, putBuffer, List.map_map]
  congr 1
  · apply List.map_congr_left
    intro other _
    by_cases ho : other.id = b.id
    · simp [ho, hid]
    · by_cases ho' : other.id = b'.id <;> simp [ho, ho', hid.symm]
  · apply List.map_congr_left
    intro w _
    by_cases hw : w.buffer = b.id
    · simp [hw, hid]
    · by_cases hw' : w.buffer = b'.id <;> simp [hw, hw', hid.symm]

/-- Only the cursors in the buffer count. -/
theorem adapted_congr
    (h : ∀ w ∈ e.windows, w.buffer = b.id → move w.id w.cursor = move' w.id w.cursor) :
    e.adapted b move = e.adapted b move' := by
  have hwindows : e.windows.map (fun w =>
        if w.buffer = b.id then { w with cursor := move w.id w.cursor } else w) =
      e.windows.map fun w =>
        if w.buffer = b.id then { w with cursor := move' w.id w.cursor } else w := by
    apply List.map_congr_left
    intro w hw
    split_ifs with hb
    · rw [h w hw hb]
    · rfl
  rw [adapted, adapted, hwindows]

theorem buffer?_adapted (h : e.buffer? id = some b) (hid : b'.id = id) :
    (e.adapted b' move).buffer? id = some b' := buffer?_putBuffer h hid

theorem touches_adapted (hid : b'.id = id) : Touches id e (e.adapted b' move) where
  buffers := by
    refine ⟨fun other => if other.id = b'.id then b' else other, rfl, fun b => ⟨?_, ?_⟩⟩
    · dsimp only
      split <;> simp_all
    · intro hb
      simp [hid, hb]
  windows := by
    refine ⟨fun w => if w.buffer = b'.id then { w with cursor := move w.id w.cursor } else w, rfl,
      fun w => ⟨?_, ?_, ?_⟩⟩
    · dsimp only
      split <;> rfl
    · dsimp only
      split <;> rfl
    · intro hw
      simp [hid, hw]
  focus := rfl
  issued := rfl

end

/-! ## Replacing text -/

theorem id_amended {r : Replacement} (h : e.buffer? id = some b) : (b.amended r).id = id :=
  show b.id = id from id_of_buffer? h

/-- A replacement that fits is carried out. -/
theorem setText_eq {r : Replacement} (h : e.buffer? id = some b) (hr : r.Fits b.text) :
    e.setText id r.range r.newLines = .ok (e.amended b r) := by
  simp only [setText, buffer_eq h, bind, Except.bind, Buffer.replace?_eq hr]
  rfl

theorem buffer?_amended {r : Replacement} (h : e.buffer? id = some b) :
    (e.amended b r).buffer? id = some (b.amended r) :=
  buffer?_putBuffer h (id_amended h)

end Editor

end WorkspaceEditing
