import WorkspaceEditing.Proofs.Batch.Cursor
import WorkspaceEditing.Proofs.Batch.Windows
import WorkspaceEditing.Proofs.Session.Sound

/-!
# The cursor of the editor stays with its text

When a valid batch is applied to the buffer in the focused window, and no edit touches the cursor,
the cursor comes to stand between what the edits have made of the text in front of it and what they
have made of the text behind it. This fails in one case only: the cursor would stand on an empty
last line, and that line is removed.

## Main results

* `Applier.applyTextEdits_cursor` — where a batch leaves the cursor, in every session.
-/

namespace WorkspaceEditing

open Protocol

namespace Text

/-- Removing the line feed at the end keeps a cut, unless it is the end that the cut is at. -/
theorem trimmed_append_cases (config : Config) (fixes : Bool) (t s : Text) {x : Text} {k : Nat}
    (hk : Inside k x) :
    (t.trimmed config fixes (s ++ x) = s ++ t.trimmed config fixes x ∧
        Inside k (t.trimmed config fixes x)) ∨
      t.trimmed config fixes (s ++ x) ++ ['\n'] = s ++ x ∧
        s.extent.line = lineCount (t.trimmed config fixes (s ++ x)) := by
  by_cases hx : x = []
  · subst hx
    have hnil : t.trimmed config fixes [] = [] := by
      unfold trimmed withoutFinalBreak
      split_ifs <;> rfl
    rw [List.append_nil, hnil, List.append_nil]
    by_cases hsame : t.trimmed config fixes s = s
    · exact .inl ⟨hsame, hk⟩
    · right
      have hend : s.endsInBreak = true := by
        unfold trimmed withoutFinalBreak at hsame
        split_ifs at hsame <;> simp_all
      obtain ⟨r, rfl⟩ := List.getLast?_eq_some_iff.1 (of_decide_eq_true hend)
      have htrimmed : t.trimmed config fixes (r ++ ['\n']) = r := by
        unfold trimmed withoutFinalBreak at hsame ⊢
        split_ifs at hsame ⊢ <;> simp_all
      rw [htrimmed]
      refine ⟨rfl, ?_⟩
      rw [lineCount_eq_extent, extent_append]
      rfl
  · refine .inl ⟨trimmed_append config fixes t s hx, ?_⟩
    rcases hk with rfl | ⟨c, rest, rfl, hc, hk⟩
    · exact .inl rfl
    · -- the character that the cursor is in is not the line feed
      cases rest with
      | nil =>
        have hkeep : t.trimmed config fixes [c] = [c] := by
          unfold trimmed withoutFinalBreak endsInBreak
          split_ifs <;> simp_all
        rw [hkeep]
        exact .inr ⟨c, [], rfl, hc, hk⟩
      | cons d rest =>
        have hkeep := trimmed_append config fixes t [c] (List.cons_ne_nil d rest)
        rw [List.singleton_append] at hkeep
        rw [hkeep]
        exact .inr ⟨c, _, rfl, hc, hk⟩

end Text

namespace Applier

variable {w : World Editor} {win : Window} {b : Buffer} {config : Config}

/-- What a batch leaves of the buffer in the focused window, and where it puts the cursor if there is
such a place. -/
theorem applyTextEdits_focused (hwin : w.host.focusedWindow? = some win)
    (hbuffer : w.host.buffer? win.buffer = some b) (hconfig : config.restoreCursor = true)
    (e : Encoding) (edits : List TextEdit) :
    ∃ w', applyTextEdits ⟨Editor.asHost, config, e⟩ win.buffer edits w = .ok () w' ∧
      w'.host.text? win.buffer = some (b.text.trimmed config b.fixesEndOfLine
        (b.text.edited e (applicationOrder edits))) ∧
      (Text.Has (b.text.trimmed config b.fixesEndOfLine (b.text.edited e (applicationOrder edits)))
          (b.text.carried e (applicationOrder edits) win.cursor) →
        w'.host.cursor? = some (b.text.carried e (applicationOrder edits) win.cursor)) := by
  have hcursor : w.host.cursor? = some win.cursor := by simp [Editor.cursor?, hwin]
  by_cases hedits : edits = []
  · subst hedits
    refine ⟨w, rfl, ?_, fun _ => hcursor⟩
    simp [Editor.text?, hbuffer, applicationOrder, Text.edited]
  · obtain ⟨w', hrun, hafter, hmoved⟩ := applyTextEdits_moved config e hwin hbuffer hedits
    refine ⟨w', hrun, ?_, ?_⟩
    · simp [Editor.text?, hafter, Buffer.text_afterBatch]
    · intro hhas
      rw [← Buffer.text_afterBatch] at hhas
      rw [hmoved, Buffer.movedByBatch, if_pos ⟨hconfig, rfl, Text.holds_iff.2 hhas⟩]

/-- What it means that the cursor `c` of the focused window stays with its text, when edits are applied
to the buffer `b` that the window shows. The cursor cuts the text into `s` and `x`, perhaps some
bytes into the first character of `x`. Of `s` the edits that end in front of the cursor make `s'`,
and of `x` the others make `x'`. Then the cursor cuts the new text into `s'` and `x'` in the same
way, less an empty last line, and has moved by as many bytes as the edits in front have made the
text longer. Otherwise it would stand on the empty last line that was removed. -/
def CursorFollows (config : Config) (e : Encoding) (w : World Editor) (b : Buffer)
    (c : BytePosition) (edits : List TextEdit) : Prop :=
  let before := edits.filter fun edit => edit.EndsBefore e b.text c
  let others := edits.filter fun edit => !decide (edit.EndsBefore e b.text c)
  ∃ s k x s' x', b.text.CutAt c s k x ∧
    b.text.spliced e before = s' ++ x ∧ (k = 0 → s.spliced e before = s') ∧
    b.text.spliced e others = s ++ x' ∧
    ∃ w' final, applyTextEdits ⟨Editor.asHost, config, e⟩ b.id edits w = .ok () w' ∧
      w'.host.text? b.id = some final ∧
      ((∃ p, w'.host.cursor? = some p ∧
          final.CutAt p s' k (b.text.trimmed config b.fixesEndOfLine x') ∧
          (final.offset p : Int) = b.text.offset c +
            (Text.growths e b.text (applicationOrder before)).sum) ∨
        final ++ ['\n'] = s' ++ x' ∧ (s'.extent + ⟨0, k⟩).line = final.lineCount)

/-- In every session, a valid batch is followed by the cursor of the focused window, if every edit
either ends in front of the cursor or starts at it or behind it. -/
theorem applyTextEdits_cursor {disk : Disk} {steps : List Session.Step}
    (hw : Session.run ⟨.empty, disk⟩ steps = w) (hwin : w.host.focusedWindow? = some win)
    (hbuffer : w.host.buffer? win.buffer = some b) (hconfig : config.restoreCursor = true)
    (e : Encoding) {edits : List TextEdit} (hvalid : ValidBatch e b.text edits)
    (hsides : ∀ edit ∈ edits,
      edit.EndsBefore e b.text win.cursor ∨ edit.StartsFrom e b.text win.cursor) :
    CursorFollows config e w b win.cursor edits := by
  -- in every session the cursor is inside the text
  have hsound : w.host.Sound := hw ▸ (Session.sound_later_run _ steps).1 Editor.sound_empty
  have hhas : b.text.Has win.cursor := by
    obtain ⟨focus, -, hfind⟩ := Option.bind_eq_some_iff.1 hwin
    obtain ⟨shown, hshown, hcursor⟩ := hsound.shows win (List.mem_of_find?_eq_some hfind)
    rw [hbuffer] at hshown
    exact Option.some.inj hshown ▸ hcursor
  obtain ⟨s, k, x, hcut⟩ := hhas.exists_cutAt
  obtain ⟨s', x', hbefore, hexact, hothers, hinside, hedited, hcarried⟩ :=
    Text.exists_carried hvalid hcut hsides
  obtain ⟨w', hrun, htext, hcursor⟩ := applyTextEdits_focused hwin hbuffer hconfig e edits
  rw [hedited] at htext hcursor
  rw [hcarried] at hcursor
  rw [← Editor.id_of_buffer? hbuffer] at hrun htext
  refine ⟨s, k, x, s', x', hcut, hbefore, hexact, hothers, w', _, hrun, htext, ?_⟩
  rcases Text.trimmed_append_cases config b.fixesEndOfLine b.text s' hinside with
    ⟨hfinal, hk⟩ | ⟨hfinal, hline⟩
  · left
    have hcut' := Text.CutAt.mk hfinal rfl hk
    refine ⟨_, hcursor hcut'.has, hcut', ?_⟩
    have hvalid' := hvalid.filter fun edit => edit.EndsBefore e b.text win.cursor
    rw [hcut'.offset_eq, hcut.offset_eq, Text.sum_growths, Text.edited_eq_spliced hvalid', hbefore,
      hcut.text_eq]
    simp only [Text.byteLength_append]
    omega
  · right
    exact ⟨hfinal, hline⟩

/-- A line put in above the cursor, and a character replaced right behind it. -/
theorem applyTextEdits_cursor_lines :
    let b : Buffer := .new ⟨1⟩ ⟨[]⟩ ['a', 'b', '\n', 'c', 'd']
    let w := Session.run ⟨.empty, .empty⟩ [.editor (.insertBuffer b.path b.text),
      .editor (.openWindow b.id), .editor (.call (.setCursor ⟨1, 1⟩))]
    let edits : List TextEdit :=
      [⟨⟨⟨0, 0⟩, ⟨0, 0⟩⟩, ['x', '\n']⟩, ⟨⟨⟨1, 1⟩, ⟨1, 2⟩⟩, ['!']⟩]
    w.host.focusedWindow? = some ⟨⟨2⟩, b.id, ⟨1, 1⟩⟩ ∧ ValidBatch .utf16 b.text edits ∧
      CursorFollows .standard .utf16 w b ⟨1, 1⟩ edits := by
  intro b w edits
  have hwin : w.host.focusedWindow? = some ⟨⟨2⟩, b.id, ⟨1, 1⟩⟩ := by decide
  have hbuffer : w.host.buffer? b.id = some b := by decide
  have hvalid : ValidBatch .utf16 b.text edits := by decide
  have hsides : ∀ edit ∈ edits,
      edit.EndsBefore .utf16 b.text ⟨1, 1⟩ ∨ edit.StartsFrom .utf16 b.text ⟨1, 1⟩ := by decide
  exact ⟨hwin, hvalid, applyTextEdits_cursor rfl hwin hbuffer rfl .utf16 hvalid hsides⟩

end Applier

end WorkspaceEditing
