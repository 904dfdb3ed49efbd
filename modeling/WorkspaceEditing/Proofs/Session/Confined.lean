import WorkspaceEditing.Proofs.Batch.Marks
import WorkspaceEditing.Proofs.Batch.Single
import WorkspaceEditing.Proofs.Batch.Windows
import WorkspaceEditing.Proofs.Session.Sound

/-!
# What a batch leaves alone

A batch of text edits is many calls of the editor: a text is set again and again, marks and the
cursor are put back, and after every new text the cursors of all windows are looked at. In every
session, all of this stays in one buffer. The other buffers and the windows on them are as they
were, and so are the files. The cursor of another window on the buffer than the focused one is taken
back inside each of the texts that the buffer passes through; if it is inside all of them, it does
not move.

## Main definitions

* `Text.passed` — the texts that replacements make, one after the other.
* `BytePosition.keptInside` — where a cursor is that is kept inside of texts.
* `Editor.Confined` — the changes of an editor are confined to one buffer and the cursors in it.

## Main results

* `Buffer.keptAfterBatch_eq_keptInside` — a batch keeps cursors inside the texts of its
  replacements.
* `Applier.applyTextEdits_confined` — in every session, a batch is confined to its buffer.
-/

namespace WorkspaceEditing

open Protocol

/-! ## Texts on the way -/

/-- The texts that replacements make of a text, one after the other. -/
def Text.passed : Text → List Replacement → List Text
  | _, [] => []
  | t, r :: rest => t.amended r :: passed (t.amended r) rest

/-- The closest position in the first text, in the second the one that is closest to that, and so
on. -/
def BytePosition.keptInside (texts : List Text) (p : BytePosition) : BytePosition :=
  texts.foldl (fun p t => t.closest p) p

namespace Text

theorem passed_append (t : Text) (rs rs' : List Replacement) :
    t.passed (rs ++ rs') = t.passed rs ++ passed (rs.foldl amended t) rs' := by
  induction rs generalizing t with
  | nil => rfl
  | cons r rest ih => exact congrArg (t.amended r :: ·) (ih (t.amended r))

/-- The last of the texts is the one that the replacements leave. -/
theorem getLast?_cons_passed (t : Text) (rs : List Replacement) :
    (t :: t.passed rs).getLast? = some (rs.foldl amended t) := by
  induction rs generalizing t with
  | nil => rfl
  | cons r rest ih =>
    rw [passed, List.getLast?_cons_cons]
    exact ih (t.amended r)

/-- Edits keep a cursor inside the texts of their replacements. -/
theorem kept_eq_keptInside (e : Encoding) (t : Text) (edits : List TextEdit) (p : BytePosition) :
    t.kept e edits p = p.keptInside (t.passed (t.replacements e edits)) := by
  induction edits generalizing t p with
  | nil => rfl
  | cons edit rest ih => exact ih _ _

end Text

namespace BytePosition

theorem keptInside_append (texts texts' : List Text) (p : BytePosition) :
    p.keptInside (texts ++ texts') = (p.keptInside texts).keptInside texts' :=
  List.foldl_append

/-- A cursor that is inside of all the texts does not move. -/
theorem keptInside_of_has {texts : List Text} {p : BytePosition} (h : ∀ t ∈ texts, t.Has p) :
    p.keptInside texts = p := by
  induction texts with
  | nil => rfl
  | cons t rest ih =>
    have hclosest : t.closest p = p := Text.closest_of_has (h t List.mem_cons_self)
    rw [keptInside, List.foldl_cons, hclosest]
    exact ih fun t' ht' => h t' (List.mem_cons_of_mem _ ht')

end BytePosition

namespace Buffer

/-- A batch keeps the cursors that it does not carry along inside the texts of its replacements. -/
theorem keptAfterBatch_eq_keptInside (config : Config) (e : Encoding) (b : Buffer)
    (edits : List TextEdit) (p : BytePosition) : b.keptAfterBatch config e edits p =
      p.keptInside (b.text.passed (b.replacements config e edits)) := by
  have hedited : (b.text.replacements e (applicationOrder edits)).foldl Text.amended b.text =
      b.text.edited e (applicationOrder edits) := (Text.edited_eq_foldl e b.text _).symm
  simp only [keptAfterBatch, keptTrimmed, trimmed, replacements, hedited, text_edited,
    fixesEndOfLine_edited, Text.kept_eq_keptInside]
  cases htrim : config.trimFinalNewline && !b.text.endsInBreak with
  | false => simp
  | true =>
    cases hends : b.fixesEndOfLine && (b.text.edited e (applicationOrder edits)).endsInBreak with
    | false => simp [hends]
    | true =>
      simp only [Bool.true_and, if_true, hends, Text.passed_append, hedited,
        BytePosition.keptInside_append]
      simp [amended, Text.passed, BytePosition.keptInside]

end Buffer

/-! ## Batches in a session -/

/-- The changes of an editor are confined to the buffer `b`, of which `b'` is left, and to the
cursors of the windows on it, while the buffer passes through some texts. -/
structure Editor.Confined (b b' : Buffer) (texts : List Text) (e e' : Editor) : Prop where
  /-- The other buffers and their windows are as they were, and so are the focus and the numbers
  that were given out. -/
  touches : Touches b.id e e'
  buffer : e'.buffer? b.id = some b'
  path : b'.path = b.path
  fixesEndOfLine : b'.fixesEndOfLine = b.fixesEndOfLine
  text : (b.text :: texts).getLast? = some b'.text
  /-- Where the cursor of a window on the buffer is kept if the window does not have the focus. -/
  clamped : ∀ win ∈ e.windows, win.buffer = b.id → e.focus ≠ some win.id →
    e'.window? win.id = some { win with cursor := win.cursor.keptInside texts }
  /-- A cursor that moves was outside of one of the texts. -/
  still : ∀ win ∈ e.windows, win.buffer = b.id → e.focus ≠ some win.id →
    (∀ t ∈ texts, t.holds win.cursor = true) → e'.window? win.id = some win

/-- Nothing changes if there is nothing to do. -/
theorem Editor.confined_refl {e : Editor} {b : Buffer} (hn : e.Numbered)
    (h : e.buffer? b.id = some b) : Confined b b [] e e where
  touches := .refl b.id e
  buffer := h
  path := rfl
  fixesEndOfLine := rfl
  text := rfl
  clamped _ hwin _ _ := window?_of_mem hn hwin
  still _ hwin _ _ _ := window?_of_mem hn hwin

/-- A batch is confined to its buffer. -/
theorem Editor.confined_afterBatch {e : Editor} {b : Buffer} (hn : e.Numbered)
    (h : e.buffer? b.id = some b) (config : Config) (enc : Encoding) (edits : List TextEdit) :
    let b' := b.afterBatch config enc edits
    Confined b b' (b.text.passed (b.replacements config enc edits)) e
      (e.adapted b' (b.movedByBatch config enc edits e.focus)) := by
  intro b'
  generalize htexts : b.text.passed (b.replacements config enc edits) = texts
  have hid : b'.id = b.id := b.id_afterBatch config enc edits
  have hclamped : ∀ win ∈ e.windows, win.buffer = b.id → e.focus ≠ some win.id →
      (e.adapted b' (b.movedByBatch config enc edits e.focus)).window? win.id =
        some { win with cursor := win.cursor.keptInside texts } := by
    intro win hwin hshown hfocus
    rw [window?_adapted (window?_of_mem hn hwin) (hshown.trans hid.symm), Buffer.movedByBatch,
      if_neg fun hmoved => hfocus hmoved.2.1, Buffer.keptAfterBatch_eq_keptInside, htexts]
  refine ⟨touches_adapted hid, buffer?_adapted h hid, b.path_afterBatch config enc edits,
    b.fixesEndOfLine_afterBatch config enc edits, ?_, hclamped, ?_⟩
  · rw [← htexts, Text.getLast?_cons_passed, Buffer.text_afterBatch_eq_foldl]
  · intro win hwin hshown hfocus hinside
    rw [hclamped win hwin hshown hfocus,
      BytePosition.keptInside_of_has fun t ht => Text.holds_iff.1 (hinside t ht)]

namespace Applier

/-- In every session, a batch of text edits for an open buffer succeeds and is confined to this
buffer and the cursors in it. No file is touched. -/
theorem applyTextEdits_confined {disk : Disk} {steps : List Session.Step} {w : World Editor}
    (hw : Session.run ⟨.empty, disk⟩ steps = w) {b : Buffer}
    (hbuffer : w.host.buffer? b.id = some b) (config : Config) (e : Encoding)
    (edits : List TextEdit) :
    ∃ w' b', applyTextEdits ⟨Editor.asHost, config, e⟩ b.id edits w = .ok () w' ∧
      w'.disk = w.disk ∧
      Editor.Confined b b' (b.text.passed (b.replacements config e edits)) w.host w'.host := by
  have hn : w.host.Numbered := hw ▸ (Session.hostSound_run disk steps).numbered
  by_cases hedits : edits = []
  · subst hedits
    have hnone : b.replacements config e [] = [] := by
      have htext : ([] : List Replacement).foldl Text.amended b.text = b.text := rfl
      cases hends : b.text.endsInBreak <;>
        simp [Buffer.replacements, applicationOrder, Text.replacements, hends]
    refine ⟨w, b, rfl, rfl, ?_⟩
    rw [hnone]
    exact Editor.confined_refl hn hbuffer
  · exact ⟨_, _, applyTextEdits_adapted config e hn hbuffer hedits, rfl,
      Editor.confined_afterBatch hn hbuffer config e edits⟩

/-- Two windows on one buffer and one on another, and a line taken out of the first buffer. The
focus is on the second buffer. -/
theorem applyTextEdits_confined_windows :
    let b : Buffer := .new ⟨1⟩ ⟨[]⟩ ['a', 'b', '\n', 'c', 'd', 'e']
    let w := Session.run ⟨.empty, .empty⟩ [.editor (.insertBuffer b.path b.text),
      .editor (.insertBuffer ⟨[47]⟩ ['x']), .editor (.openWindow ⟨1⟩),
      .editor (.call (.setCursor ⟨1, 3⟩)), .editor (.openWindow ⟨1⟩),
      .editor (.call (.setCursor ⟨0, 1⟩)), .editor (.openWindow ⟨2⟩),
      .editor (.call (.setCursor ⟨0, 1⟩))]
    let edits : List TextEdit := [⟨⟨⟨1, 0⟩, ⟨2, 0⟩⟩, []⟩]
    w.host.buffer? b.id = some b ∧
      ∃ w', applyTextEdits ⟨Editor.asHost, .standard, .utf16⟩ b.id edits w = .ok () w' ∧
        w'.disk = w.disk ∧ w.host.Touches b.id w'.host ∧
        w'.host.text? b.id = some ['a', 'b'] ∧
        w'.host.window? ⟨3⟩ = some ⟨⟨3⟩, b.id, ⟨0, 0⟩⟩ ∧
        w'.host.window? ⟨4⟩ = some ⟨⟨4⟩, b.id, ⟨0, 1⟩⟩ := by
  intro b w edits
  have hbuffer : w.host.buffer? b.id = some b := by decide
  have hwindows : ⟨⟨3⟩, b.id, ⟨1, 3⟩⟩ ∈ w.host.windows ∧ ⟨⟨4⟩, b.id, ⟨0, 1⟩⟩ ∈ w.host.windows := by
    decide
  have hfocus : w.host.focus ≠ some ⟨3⟩ ∧ w.host.focus ≠ some ⟨4⟩ := by decide
  have htexts : b.text.passed (b.replacements .standard .utf16 edits) =
      [['a', 'b', '\n'], ['a', 'b']] := by decide
  obtain ⟨w', b', hrun, hdisk, hconfined⟩ :=
    applyTextEdits_confined (w := w) rfl hbuffer .standard .utf16 edits
  rw [htexts] at hconfined
  refine ⟨hbuffer, w', hrun, hdisk, hconfined.touches, ?_, ?_, ?_⟩
  · rw [Editor.text?, hconfined.buffer, Option.map_some]
    exact hconfined.text.symm
  · exact hconfined.clamped _ hwindows.1 rfl hfocus.1
  · exact hconfined.still _ hwindows.2 rfl hfocus.2 (by decide)

end Applier

end WorkspaceEditing
