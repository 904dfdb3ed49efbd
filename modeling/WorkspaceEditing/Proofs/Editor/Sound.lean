import WorkspaceEditing.Proofs.Editor.Replacement
import WorkspaceEditing.Proofs.Text.Cut

/-!
# The order that the editor keeps

Every window shows an open buffer, with its cursor at a place inside the text; one of the windows
has the focus if there are any; and handles are numbered in the order in which they are given out,
so that none is given out twice. Each operation of the editor keeps this order. An operation that
changes a text, or what a window shows, leaves cursors that may lie outside at first, and then pulls
these cursors inside.

## Main definitions

* `Editor.Sound` — the order.
* `Editor.Later` — of two states, the second gives no handle out again that the first has given out.
* `Editor.DistinctPaths` — no path is open twice.

## Main results

* `Editor.Sound.setText`, `Editor.Sound.deleteBuffer`, … — each operation keeps the order.
* `Editor.Later.setText`, `Editor.Later.deleteBuffer`, … — and gives no handle out again.
-/

namespace WorkspaceEditing

namespace Editor

variable {e e' e'' : Editor} {id : BufferId} {b b' : Buffer}

/-! ## The order -/

/-- The numbers of all handles, those of buffers first. -/
def numbers (e : Editor) : List Nat :=
  e.buffers.map (·.id.number) ++ e.windows.map (·.id.number)

/-- No two handles have one number, and all numbers have been given out. -/
structure Numbered (e : Editor) : Prop where
  nodup : e.numbers.Nodup
  issued : ∀ n ∈ e.numbers, 0 < n ∧ n ≤ e.issued

/-- A window has the focus if there is any. -/
structure Focused (e : Editor) : Prop where
  none_iff : e.focus = none ↔ e.windows = []
  mem : ∀ id, e.focus = some id → ∃ win ∈ e.windows, win.id = id

/-- A window shows an open buffer, with its cursor at a place of the text. -/
def Shows (e : Editor) (win : Window) : Prop :=
  ∃ b, e.buffer? win.buffer = some b ∧ b.text.Has win.cursor

/-- The order that the editor keeps. -/
structure Sound (e : Editor) : Prop where
  shows : ∀ win ∈ e.windows, e.Shows win
  focused : e.Focused
  numbered : e.Numbered

/-- The order, but for the windows that show one buffer. -/
structure SoundBut (id : BufferId) (e : Editor) : Prop where
  shows : ∀ win ∈ e.windows, win.buffer ≠ id → e.Shows win
  focused : e.Focused
  numbered : e.Numbered

/-- No handle that was given out before the first state is open in the second, unless it is open in
the first. -/
structure Later (e e' : Editor) : Prop where
  issued : e.issued ≤ e'.issued
  buffers : ∀ b' ∈ e'.buffers, b'.id.number ≤ e.issued → ∃ b ∈ e.buffers, b.id = b'.id
  windows : ∀ w' ∈ e'.windows, w'.id.number ≤ e.issued → ∃ w ∈ e.windows, w.id = w'.id

/-- No two open buffers have one path. -/
def DistinctPaths (e : Editor) : Prop :=
  (e.buffers.map (·.path)).Pairwise fun p q => p.same q = false

theorem sound_empty : Editor.empty.Sound where
  shows := by simp [empty]
  focused := ⟨by simp [empty], by simp [empty]⟩
  numbered := ⟨by simp [empty, numbers], by simp [empty, numbers]⟩

namespace Later

theorem refl (e : Editor) : Later e e where
  issued := Nat.le_refl _
  buffers b hb _ := ⟨b, hb, rfl⟩
  windows w hw _ := ⟨w, hw, rfl⟩

theorem trans (h : Later e e') (h' : Later e' e'') : Later e e'' where
  issued := Nat.le_trans h.issued h'.issued
  buffers b'' hb'' hn := by
    obtain ⟨b', hb', hid'⟩ := h'.buffers b'' hb'' (Nat.le_trans hn h.issued)
    obtain ⟨b, hb, hid⟩ := h.buffers b' hb' (hid' ▸ hn)
    exact ⟨b, hb, hid.trans hid'⟩
  windows w'' hw'' hn := by
    obtain ⟨w', hw', hid'⟩ := h'.windows w'' hw'' (Nat.le_trans hn h.issued)
    obtain ⟨w, hw, hid⟩ := h.windows w' hw' (hid' ▸ hn)
    exact ⟨w, hw, hid.trans hid'⟩

end Later

/-! ## Changes that leave the handles as they are -/

/-- The same buffers and windows are open, in whatever state, and the focus is the same. -/
structure SameHandles (e e' : Editor) : Prop where
  buffers : e'.buffers.map (·.id) = e.buffers.map (·.id)
  windows : e'.windows.map (·.id) = e.windows.map (·.id)
  focus : e'.focus = e.focus
  issued : e'.issued = e.issued

namespace SameHandles

theorem trans (h : SameHandles e e') (h' : SameHandles e' e'') : SameHandles e e'' :=
  ⟨h'.buffers.trans h.buffers, h'.windows.trans h.windows, h'.focus.trans h.focus,
    h'.issued.trans h.issued⟩

theorem numbers_eq (h : SameHandles e e') : e'.numbers = e.numbers := by
  have hb := congrArg (List.map BufferId.number) h.buffers
  have hw := congrArg (List.map WindowId.number) h.windows
  simp only [List.map_map] at hb hw
  exact congrArg₂ (· ++ ·) hb hw

theorem numbered (h : SameHandles e e') (hn : e.Numbered) : e'.Numbered :=
  ⟨h.numbers_eq ▸ hn.nodup, by rw [h.numbers_eq, h.issued]; exact hn.issued⟩

theorem focused (h : SameHandles e e') (hf : e.Focused) : e'.Focused where
  none_iff := by
    have hempty : e'.windows = [] ↔ e.windows = [] := by
      rw [← List.map_eq_nil_iff (f := Window.id), h.windows, List.map_eq_nil_iff]
    rw [h.focus, hempty]
    exact hf.none_iff
  mem id hid := by
    obtain ⟨win, hwin, rfl⟩ := hf.mem id (h.focus ▸ hid)
    exact List.mem_map.1 (h.windows ▸ List.mem_map_of_mem hwin)

theorem later (h : SameHandles e e') : Later e e' where
  issued := Nat.le_of_eq h.issued.symm
  buffers _ hb' _ := List.mem_map.1 (h.buffers ▸ List.mem_map_of_mem hb')
  windows _ hw' _ := List.mem_map.1 (h.windows ▸ List.mem_map_of_mem hw')

end SameHandles

theorem sameHandles_putBuffer (e : Editor) (b : Buffer) : SameHandles e (e.putBuffer b) where
  buffers := by
    simp only [putBuffer, List.map_map]
    apply List.map_congr_left
    intro other _
    by_cases ho : other.id = b.id <;> simp [ho]
  windows := rfl
  focus := rfl
  issued := rfl

theorem sameHandles_putWindow (e : Editor) (win : Window) : SameHandles e (e.putWindow win) where
  buffers := rfl
  windows := by
    simp only [putWindow, List.map_map]
    apply List.map_congr_left
    intro other _
    by_cases ho : other.id = win.id <;> simp [ho]
  focus := rfl
  issued := rfl

theorem sameHandles_clampCursors (e : Editor) (b : Buffer) :
    SameHandles e (e.clampCursors b) where
  buffers := rfl
  windows := by
    simp only [clampCursors, List.map_map]
    apply List.map_congr_left
    intro other _
    by_cases ho : other.buffer = b.id <;> simp [ho]
  focus := rfl
  issued := rfl

/-! ## Looking up buffers -/

theorem buffer?_putBuffer_of_ne (h : id ≠ b.id) : (e.putBuffer b).buffer? id = e.buffer? id := by
  simp only [buffer?, putBuffer, List.find?_map]
  have hcomp : ((fun b => decide (b.id = id)) ∘ fun other => if other.id = b.id then b else other) =
      fun other => decide (other.id = id) := by
    funext other
    by_cases ho : other.id = b.id <;> simp [ho]
  rw [hcomp]
  cases hfind : e.buffers.find? fun other => decide (other.id = id) with
  | none => rfl
  | some found =>
    have hid : found.id = id := by simpa using List.find?_some hfind
    simp [hid, h]

/-- Different buffers have different handles. -/
theorem Numbered.nodup_ids (h : e.Numbered) : (e.buffers.map (·.id)).Nodup := by
  have hnumbers := (List.nodup_append.1 h.nodup).1
  exact .of_map BufferId.number (by rwa [List.map_map])

/-- With distinct handles, a buffer among the open ones is the one that is found. -/
theorem buffer?_of_mem (h : e.Numbered) (hb : b ∈ e.buffers) : e.buffer? b.id = some b := by
  unfold buffer?
  cases hfind : e.buffers.find? fun other => decide (other.id = b.id) with
  | none =>
    have := List.find?_eq_none.1 hfind b hb
    simp at this
  | some found =>
    have hid : found.id = b.id := by simpa using List.find?_some hfind
    rw [List.inj_on_of_nodup_map h.nodup_ids (List.mem_of_find?_eq_some hfind) hb hid]

theorem Numbered.eq_of_id (h : e.Numbered) {c : Buffer} (hb : b ∈ e.buffers) (hc : c ∈ e.buffers)
    (hid : b.id = c.id) : b = c := by
  have hfound := buffer?_of_mem h hb
  rw [hid, buffer?_of_mem h hc] at hfound
  exact (Option.some.inj hfound).symm

theorem exists_of_bind_buffer {α : Type} {f : Buffer → Except HostError α} {value : α}
    (h : (e.buffer id >>= f) = .ok value) : ∃ b, e.buffer? id = some b ∧ f b = .ok value := by
  unfold buffer at h
  cases hb : e.buffer? id with
  | none =>
    rw [hb] at h
    cases h
  | some b =>
    rw [hb] at h
    exact ⟨b, rfl, h⟩

theorem exists_of_bind_window {α : Type} {f : Window → Except HostError α} {value : α}
    {win : WindowId} (h : (e.window win >>= f) = .ok value) :
    ∃ w, e.window? win = some w ∧ f w = .ok value := by
  unfold window at h
  cases hw : e.window? win with
  | none =>
    rw [hw] at h
    cases h
  | some w =>
    rw [hw] at h
    exact ⟨w, rfl, h⟩

/-! ## Cursors inside and outside -/

/-- What a changed buffer is put for, the other buffers do not see. -/
theorem Sound.soundBut_putBuffer (h : e.Sound) (b : Buffer) : SoundBut b.id (e.putBuffer b) where
  shows win hwin hne := by
    obtain ⟨shown, hshown, hcursor⟩ := h.shows win hwin
    exact ⟨shown, (buffer?_putBuffer_of_ne hne).trans hshown, hcursor⟩
  focused := (sameHandles_putBuffer e b).focused h.focused
  numbered := (sameHandles_putBuffer e b).numbered h.numbered

/-- A window that comes to show a buffer may have its cursor anywhere. -/
theorem Sound.soundBut_putWindow (h : e.Sound) (win : Window) :
    SoundBut win.buffer (e.putWindow win) where
  shows other hother hne := by
    obtain ⟨old, hold, rfl⟩ := List.mem_map.1 hother
    by_cases hid : old.id = win.id
    · simp [hid] at hne
    · simp only [hid, if_false]
      exact h.shows old hold
  focused := (sameHandles_putWindow e win).focused h.focused
  numbered := (sameHandles_putWindow e win).numbered h.numbered

/-- The order is restored when the cursors in the buffer are pulled inside its text. -/
theorem SoundBut.clampCursors (h : SoundBut b.id e) (hb : e.buffer? b.id = some b) :
    (e.clampCursors b).Sound where
  shows win hwin := by
    obtain ⟨old, hold, rfl⟩ := List.mem_map.1 hwin
    by_cases hshown : old.buffer = b.id
    · simp only [hshown, if_true]
      exact ⟨b, hb, b.text.has_closest old.cursor⟩
    · simp only [hshown, if_false]
      exact h.shows old hold hshown
  focused := (sameHandles_clampCursors e b).focused h.focused
  numbered := (sameHandles_clampCursors e b).numbered h.numbered

/-- A buffer may change otherwise while its text stays. -/
theorem Sound.putBuffer (h : e.Sound) (hb : e.buffer? id = some b) (hid : b'.id = id)
    (htext : b'.text = b.text) : (e.putBuffer b').Sound where
  shows win hwin := by
    subst hid
    by_cases hshown : win.buffer = b'.id
    · obtain ⟨shown, hfound, hcursor⟩ := h.shows win hwin
      obtain rfl : b = shown := by rw [hshown, hb] at hfound; exact Option.some.inj hfound
      exact ⟨b', by rw [hshown]; exact buffer?_putBuffer hb rfl, htext ▸ hcursor⟩
    · exact (h.soundBut_putBuffer b').shows win hwin hshown
  focused := (sameHandles_putBuffer e b').focused h.focused
  numbered := (sameHandles_putBuffer e b').numbered h.numbered

/-! ## What each operation does -/

/-- A buffer is put in the place of one that has the same path and the same text. -/
def Retouched (id : BufferId) (e e' : Editor) : Prop :=
  ∃ b b' : Buffer, e.buffer? id = some b ∧ e' = e.putBuffer b' ∧
    b'.id = id ∧ b'.path = b.path ∧ b'.text = b.text

theorem cases_of_setText {r : ByteRange} {newLines : List Text}
    (h : e.setText id r newLines = .ok e') :
    ∃ b changed, e.buffer? id = some b ∧ b.replace? r newLines = some changed ∧
      e' = (e.putBuffer changed).clampCursors changed := by
  obtain ⟨b, hb, h⟩ := exists_of_bind_buffer h
  cases hreplace : b.replace? r newLines with
  | none =>
    simp only [hreplace] at h
    cases h
  | some changed =>
    simp only [hreplace] at h
    exact ⟨b, changed, hb, hreplace, (Except.ok.inj h).symm⟩

/-- A replacement changes the text and the marks of a buffer only. -/
theorem id_path_of_replace? {r : ByteRange} {newLines : List Text}
    (h : b.replace? r newLines = some b') : b'.id = b.id ∧ b'.path = b.path := by
  simp only [Buffer.replace?, Option.bind_eq_bind, Option.bind_eq_some_iff] at h
  obtain ⟨text, -, h⟩ := h
  cases h
  exact ⟨rfl, rfl⟩

/-- An operation that changes neither the handle, nor the path, nor the text of its buffer. -/
theorem retouched_of_bind {f : Buffer → Buffer}
    (h : (e.buffer id >>= fun b => pure (e.putBuffer (f b))) = .ok e')
    (hf : ∀ b, (f b).id = b.id ∧ (f b).path = b.path ∧ (f b).text = b.text) :
    Retouched id e e' := by
  obtain ⟨b, hb, h⟩ := exists_of_bind_buffer h
  obtain ⟨hid, hpath, htext⟩ := hf b
  exact ⟨b, f b, hb, (Except.ok.inj h).symm, hid.trans (id_of_buffer? hb), hpath, htext⟩

theorem retouched_setFixesEndOfLine {fixes : Bool} (h : e.setFixesEndOfLine id fixes = .ok e') :
    Retouched id e e' :=
  retouched_of_bind h fun _ => ⟨rfl, rfl, rfl⟩

theorem retouched_setListed (h : e.setListed id = .ok e') : Retouched id e e' :=
  retouched_of_bind h fun _ => ⟨rfl, rfl, rfl⟩

theorem retouched_setMarks {ms : List Mark} (h : e.setMarks id ms = .ok e') :
    Retouched id e e' :=
  retouched_of_bind h fun _ => ⟨rfl, rfl, rfl⟩

theorem cases_of_setCursor {p : BytePosition} (h : e.setCursor p = .ok e') :
    e' = e ∨ ∃ win b, win ∈ e.windows ∧ e.buffer? win.buffer = some b ∧ b.text.Has p ∧
      e' = e.putWindow { win with cursor := p } := by
  unfold setCursor at h
  cases hfocus : e.focus with
  | none =>
    rw [hfocus] at h
    exact .inl (Except.ok.inj h).symm
  | some focus =>
    rw [hfocus] at h
    obtain ⟨win, hwin, h⟩ := exists_of_bind_window h
    obtain ⟨b, hb, h⟩ := exists_of_bind_buffer h
    by_cases hp : b.text.holds p = true
    · rw [if_pos hp] at h
      exact .inr ⟨win, b, List.mem_of_find?_eq_some hwin, hb, Text.holds_iff.1 hp,
        (Except.ok.inj h).symm⟩
    · rw [if_neg hp] at h
      cases h

theorem cases_of_setWindowBuffer {win : WindowId} (h : e.setWindowBuffer win id = .ok e') :
    ∃ (w : Window) (b : Buffer), e.buffer? id = some b ∧
      e' = (e.putWindow { w with buffer := id }).clampCursors b := by
  obtain ⟨b, hb, h⟩ := exists_of_bind_buffer h
  obtain ⟨w, hw, h⟩ := exists_of_bind_window h
  exact ⟨w, b, hb, (Except.ok.inj h).symm⟩

theorem cases_of_openWindow {win : WindowId} (h : e.openWindow id = .ok (win, e')) :
    ∃ b, e.buffer? id = some b ∧ e'.buffers = e.buffers ∧
      e'.windows = e.windows ++ [⟨⟨e.issued + 1⟩, id, .origin⟩] ∧
      e'.focus = some ⟨e.issued + 1⟩ ∧ e'.issued = e.issued + 1 := by
  obtain ⟨b, hb, h⟩ := exists_of_bind_buffer h
  cases h
  exact ⟨b, hb, rfl, rfl, rfl, rfl⟩

theorem cases_of_deleteBuffer (h : e.deleteBuffer id = .ok e') :
    e'.buffers = e.buffers.filter (·.id ≠ id) ∧ e'.windows = e.windows.filter (·.buffer ≠ id) ∧
      e'.issued = e.issued ∧
      e'.focus = match e.focus with
        | some win => if e'.windows.any (·.id = win) then some win else e'.windows.head?.map (·.id)
        | none => none := by
  obtain ⟨b, hb, h⟩ := exists_of_bind_buffer h
  cases h
  exact ⟨rfl, rfl, rfl, rfl⟩

/-! ## The order is kept -/

/-- With the windows on a buffer goes the focus, if it was on one of them, and comes to a window that
is left. -/
theorem Focused.deleteBuffer (h : e.Focused) (hdelete : e.deleteBuffer id = .ok e') :
    e'.Focused := by
  obtain ⟨-, hwindows, -, hfocus⟩ := cases_of_deleteBuffer hdelete
  cases hold : e.focus with
  | none =>
    have hnil : e'.windows = [] := by rw [hwindows, h.none_iff.1 hold, List.filter_nil]
    simp only [hold] at hfocus
    exact ⟨by simp [hfocus, hnil], by simp [hfocus]⟩
  | some win =>
    simp only [hold] at hfocus
    by_cases hkept : e'.windows.any (·.id = win) = true
    · rw [if_pos hkept] at hfocus
      obtain ⟨w, hw, hid⟩ := List.any_eq_true.1 hkept
      refine ⟨?_, ?_⟩
      · simp [hfocus, List.ne_nil_of_mem hw]
      · intro id hid'
        rw [hfocus] at hid'
        exact ⟨w, hw, (of_decide_eq_true hid).trans (Option.some.inj hid')⟩
    · rw [if_neg hkept] at hfocus
      cases hw : e'.windows with
      | nil => exact ⟨by simp [hfocus, hw], by simp [hfocus, hw]⟩
      | cons first rest => exact ⟨by simp [hfocus, hw], by simp [hfocus, hw]⟩

/-- A handle that is given out is new. -/
theorem Numbered.append (h : e.Numbered) (numbers : List Nat)
    (hperm : numbers.Perm ((e.issued + 1) :: e.numbers)) :
    numbers.Nodup ∧ ∀ n ∈ numbers, 0 < n ∧ n ≤ e.issued + 1 := by
  constructor
  · rw [hperm.nodup_iff, List.nodup_cons]
    refine ⟨?_, h.nodup⟩
    intro hmem
    have := (h.issued _ hmem).2
    omega
  · intro n hn
    rcases List.mem_cons.1 (hperm.mem_iff.1 hn) with rfl | hn
    · omega
    · have := h.issued n hn
      omega

namespace Sound

variable (h : e.Sound)
include h

theorem insertBuffer (path : Path) (text : Text) : (e.insertBuffer path text).2.Sound where
  shows win hwin := by
    obtain ⟨b, hb, hcursor⟩ := h.shows win hwin
    refine ⟨b, ?_, hcursor⟩
    simp only [buffer?, Editor.insertBuffer, List.find?_append] at hb ⊢
    rw [hb]
    rfl
  focused := ⟨h.focused.none_iff, h.focused.mem⟩
  numbered := by
    obtain ⟨hnodup, hissued⟩ := h.numbered.append (e.insertBuffer path text).2.numbers
      (by simp [numbers, Editor.insertBuffer, Buffer.new])
    exact ⟨hnodup, hissued⟩

theorem openWindow {win : WindowId} (hopen : e.openWindow id = .ok (win, e')) : e'.Sound := by
  obtain ⟨b, hb, hbuffers, hwindows, hfocus, hissued⟩ := cases_of_openWindow hopen
  have hfind (id : BufferId) : e'.buffer? id = e.buffer? id := by rw [buffer?, hbuffers, buffer?]
  refine ⟨?_, ⟨by simp [hfocus, hwindows], ?_⟩, ?_⟩
  · intro win hwin
    rw [hwindows, List.mem_append, List.mem_singleton] at hwin
    rcases hwin with hwin | rfl
    · obtain ⟨b, hb, hcursor⟩ := h.shows win hwin
      exact ⟨b, (hfind _).trans hb, hcursor⟩
    · exact ⟨b, (hfind _).trans hb, b.text.has_origin⟩
  · intro focus hid
    rw [hfocus] at hid
    refine ⟨⟨⟨e.issued + 1⟩, id, .origin⟩, ?_, Option.some.inj hid⟩
    rw [hwindows]
    exact List.mem_append_right _ (List.mem_singleton_self _)
  · obtain ⟨hnodup, hall⟩ := h.numbered.append e'.numbers (by
      simp only [numbers, hbuffers, hwindows, List.map_append, List.map_cons, List.map_nil]
      rw [← List.append_assoc]
      exact List.perm_append_singleton _ _)
    exact ⟨hnodup, hissued ▸ hall⟩

theorem retouched (hput : Retouched id e e') : e'.Sound := by
  obtain ⟨b, b', hb, rfl, hid, -, htext⟩ := hput
  exact h.putBuffer hb hid htext

theorem setText {r : ByteRange} {newLines : List Text} (hset : e.setText id r newLines = .ok e') :
    e'.Sound := by
  obtain ⟨b, changed, hb, hreplace, rfl⟩ := cases_of_setText hset
  have hid : changed.id = id := (id_path_of_replace? hreplace).1.trans (id_of_buffer? hb)
  exact (h.soundBut_putBuffer changed).clampCursors (buffer?_putBuffer (hid ▸ hb) rfl)

theorem setCursor {p : BytePosition} (hset : e.setCursor p = .ok e') : e'.Sound := by
  rcases cases_of_setCursor hset with rfl | ⟨win, b, hwin, hb, hp, rfl⟩
  · exact h
  · refine ⟨?_, (sameHandles_putWindow e _).focused h.focused,
      (sameHandles_putWindow e _).numbered h.numbered⟩
    intro other hother
    obtain ⟨old, hold, rfl⟩ := List.mem_map.1 hother
    by_cases hid : old.id = win.id
    · simp only [hid, if_true]
      exact ⟨b, hb, hp⟩
    · simp only [hid, if_false]
      exact h.shows old hold

theorem setWindowBuffer {win : WindowId} (hset : e.setWindowBuffer win id = .ok e') :
    e'.Sound := by
  obtain ⟨w, b, hb, rfl⟩ := cases_of_setWindowBuffer hset
  obtain rfl := id_of_buffer? hb
  exact (h.soundBut_putWindow { w with buffer := b.id }).clampCursors hb

theorem deleteBuffer (hdelete : e.deleteBuffer id = .ok e') : e'.Sound := by
  obtain ⟨hbuffers, hwindows, hissued, -⟩ := cases_of_deleteBuffer hdelete
  refine ⟨?_, h.focused.deleteBuffer hdelete, ?_⟩
  · intro win hwin
    rw [hwindows, List.mem_filter] at hwin
    obtain ⟨hwin, hne⟩ := hwin
    obtain ⟨b, hb, hcursor⟩ := h.shows win hwin
    refine ⟨b, ?_, hcursor⟩
    rw [buffer?, hbuffers, List.find?_filter, ← hb, buffer?]
    congr 1
    funext other
    by_cases ho : other.id = win.buffer
    · simpa [ho] using hne
    · simp [ho]
  · have hsub : e'.numbers.Sublist e.numbers := by
      rw [numbers, hbuffers, hwindows]
      exact (List.filter_sublist.map _).append (List.filter_sublist.map _)
    exact ⟨h.numbered.nodup.sublist hsub, fun n hn => hissued ▸ h.numbered.issued n (hsub.subset hn)⟩

end Sound

/-! ## No handle is given out again -/

namespace Later

theorem insertBuffer (e : Editor) (path : Path) (text : Text) :
    Later e (e.insertBuffer path text).2 where
  issued := Nat.le_succ _
  buffers b' hb' hn := by
    rcases List.mem_append.1 hb' with hb' | hb'
    · exact ⟨b', hb', rfl⟩
    · rw [List.mem_singleton.1 hb', Buffer.new] at hn
      exact absurd hn (Nat.not_succ_le_self _)
  windows w hw _ := ⟨w, hw, rfl⟩

theorem openWindow {win : WindowId} (h : e.openWindow id = .ok (win, e')) : Later e e' := by
  obtain ⟨b, -, hbuffers, hwindows, -, hissued⟩ := cases_of_openWindow h
  refine ⟨by omega, fun b' hb' _ => ⟨b', hbuffers ▸ hb', rfl⟩, ?_⟩
  intro w' hw' hn
  rw [hwindows] at hw'
  rcases List.mem_append.1 hw' with hw' | hw'
  · exact ⟨w', hw', rfl⟩
  · rw [List.mem_singleton.1 hw'] at hn
    exact absurd hn (Nat.not_succ_le_self _)

theorem retouched (h : Retouched id e e') : Later e e' := by
  obtain ⟨b, b', -, rfl, -⟩ := h
  exact (sameHandles_putBuffer e b').later

theorem setText {r : ByteRange} {newLines : List Text} (h : e.setText id r newLines = .ok e') :
    Later e e' := by
  obtain ⟨b, changed, -, -, rfl⟩ := cases_of_setText h
  exact ((sameHandles_putBuffer e changed).trans (sameHandles_clampCursors _ changed)).later

theorem setCursor {p : BytePosition} (h : e.setCursor p = .ok e') : Later e e' := by
  rcases cases_of_setCursor h with rfl | ⟨win, b, -, -, -, rfl⟩
  · exact .refl e'
  · exact (sameHandles_putWindow e _).later

theorem setWindowBuffer {win : WindowId} (h : e.setWindowBuffer win id = .ok e') : Later e e' := by
  obtain ⟨w, b, -, rfl⟩ := cases_of_setWindowBuffer h
  exact ((sameHandles_putWindow e _).trans (sameHandles_clampCursors _ b)).later

theorem deleteBuffer (h : e.deleteBuffer id = .ok e') : Later e e' := by
  obtain ⟨hbuffers, hwindows, hissued, -⟩ := cases_of_deleteBuffer h
  refine ⟨Nat.le_of_eq hissued.symm, fun b' hb' _ => ⟨b', ?_, rfl⟩, fun w' hw' _ => ⟨w', ?_, rfl⟩⟩
  · rw [hbuffers] at hb'
    exact List.mem_of_mem_filter hb'
  · rw [hwindows] at hw'
    exact List.mem_of_mem_filter hw'

end Later

/-! ## No path is opened twice -/

/-- Putting a buffer changes no path, if it has the path of the one in its place. -/
theorem map_path_putBuffer (h : e.Numbered) (hb : e.buffer? id = some b) (hid : b'.id = id)
    (hpath : b'.path = b.path) :
    (e.putBuffer b').buffers.map (·.path) = e.buffers.map (·.path) := by
  simp only [putBuffer, List.map_map]
  apply List.map_congr_left
  intro other hother
  by_cases ho : other.id = b'.id
  · have hfound := buffer?_of_mem h hother
    rw [ho, hid, hb] at hfound
    obtain rfl := Option.some.inj hfound
    simp [ho, hpath]
  · simp [ho]

namespace DistinctPaths

variable (h : e.DistinctPaths)
include h

/-- A path that is not open may be opened. -/
theorem insertBuffer {path : Path}
    (hfresh : e.findBuffer? path = none) (text : Text) :
    (e.insertBuffer path text).2.DistinctPaths := by
  unfold findBuffer? at hfresh
  rw [Option.map_eq_none_iff, List.find?_eq_none] at hfresh
  unfold DistinctPaths
  rw [Editor.insertBuffer, List.map_append, List.pairwise_append]
  refine ⟨h, by simp, ?_⟩
  intro p hp q hq
  obtain ⟨b, hb, rfl⟩ := List.mem_map.1 hp
  obtain rfl : q = path := by simpa [Buffer.new] using hq
  simpa using hfresh b hb

/-- The paths stay as they are. -/
theorem of_paths_eq (hpaths : e'.buffers.map (·.path) = e.buffers.map (·.path)) :
    e'.DistinctPaths := by
  unfold DistinctPaths
  rw [hpaths]
  exact h

theorem openWindow {win : WindowId} (hopen : e.openWindow id = .ok (win, e')) :
    e'.DistinctPaths := by
  obtain ⟨b, -, hbuffers, -⟩ := cases_of_openWindow hopen
  exact h.of_paths_eq (by rw [hbuffers])

theorem retouched (hn : e.Numbered) (hput : Retouched id e e') : e'.DistinctPaths := by
  obtain ⟨b, b', hb, rfl, hid, hpath, -⟩ := hput
  exact h.of_paths_eq (map_path_putBuffer hn hb hid hpath)

theorem setText (hn : e.Numbered) {r : ByteRange} {newLines : List Text}
    (hset : e.setText id r newLines = .ok e') : e'.DistinctPaths := by
  obtain ⟨b, changed, hb, hreplace, rfl⟩ := cases_of_setText hset
  obtain ⟨hid, hpath⟩ := id_path_of_replace? hreplace
  exact h.of_paths_eq (map_path_putBuffer hn hb (hid.trans (id_of_buffer? hb)) hpath)

theorem setCursor {p : BytePosition} (hset : e.setCursor p = .ok e') : e'.DistinctPaths := by
  rcases cases_of_setCursor hset with rfl | ⟨win, b, -, -, -, rfl⟩
  · exact h
  · exact h.of_paths_eq rfl

theorem setWindowBuffer {win : WindowId} (hset : e.setWindowBuffer win id = .ok e') :
    e'.DistinctPaths := by
  obtain ⟨w, b, -, rfl⟩ := cases_of_setWindowBuffer hset
  exact h.of_paths_eq rfl

theorem deleteBuffer (hdelete : e.deleteBuffer id = .ok e') : e'.DistinctPaths := by
  obtain ⟨hbuffers, -⟩ := cases_of_deleteBuffer hdelete
  unfold DistinctPaths
  rw [hbuffers]
  exact h.sublist (List.filter_sublist.map _)

end DistinctPaths

end Editor

end WorkspaceEditing
