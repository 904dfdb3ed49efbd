import WorkspaceEditing.Proofs.Host.Account
import WorkspaceEditing.Proofs.Text.Place

/-!
# Replacing text is splicing bytes

The call that replaces a range of a buffer's text speaks of lines and columns. It is accepted exactly
if both ends of the range name places of the text, the start not behind the end, and then it splices
the text as a sequence of bytes: what is in front of the start and what is behind the end stays, and
the new lines, with line feeds between them, stand in between. A call that is not accepted changes
nothing at all.

## Main results

* `Replacement.fits_iff` — the replacements that a text has a range for.
* `Editor.setText_spliced` — when the call is accepted, and what it leaves then and otherwise.
-/

namespace WorkspaceEditing

theorem Replacement.fits_iff {r : Replacement} {t : Text} : r.Fits t ↔ t.HasRange r.range :=
  Text.hasRange_iff.symm

/-- A replacement that fits leaves the bytes on the two sides of its range, and its lines between. -/
theorem Text.toBytes_amended {r : Replacement} {t : Text} (h : r.Fits t) :
    (t.amended r).toBytes =
      t.bytesBefore r.range.start ++ toBytes (['\n'].intercalate r.newLines) ++
        t.bytesFrom r.range.stop := by
  obtain ⟨s, m, x, rfl, hr⟩ := h
  have hfront : (s ++ m ++ x).bytesBefore s.extent = s.toBytes := by
    rw [List.append_assoc, bytesBefore_extent]
  rw [amended_eq hr, hr, hfront, bytesFrom_extent, ofLines_eq_intercalate]
  simp only [toBytes_append]

namespace Editor

variable {w : World Editor} {id : BufferId} {b : Buffer} {r : ByteRange} {newLines : List Text}

/-- A range that the text does not have is refused. -/
theorem setText_error (h : w.host.buffer? id = some b) (hr : ¬ b.text.HasRange r) :
    asHost.setText id r newLines w = .error (.outOfBounds id r) w := by
  have hreplace : b.replace? r newLines = none := by
    cases hnew : Text.replace? r (Text.ofLines newLines) b.text with
    | none => rw [Buffer.replace?, hnew]; rfl
    | some new =>
      obtain ⟨s, m, x, ht, hr', -⟩ := Text.replace?_eq_some_iff.1 hnew
      exact absurd (Text.hasRange_iff.2 ⟨s, m, x, ht, hr'⟩) hr
  show HostAction.update (·.setText id r newLines) w = _
  apply HostAction.update_error
  simp only [setText, buffer_eq h, bind, Except.bind, hreplace]
  rfl

/-- Replacing a range of a buffer's text is accepted exactly if both ends of the range name places of
the text and the start is not behind the end. Then the text has the bytes in front of the start, those
of the new lines with line feeds between them, and the bytes from the end on, and its lines are what
it is split into at its line feeds. Otherwise the call fails, and everything is as it was. -/
theorem setText_spliced (h : w.host.buffer? id = some b) (r : ByteRange) (newLines : List Text) :
    (b.text.HasRange r →
      ∃ w' new, asHost.setText id r newLines w = .ok () w' ∧ w'.host.text? id = some new ∧
        new.toBytes = b.text.bytesBefore r.start ++ Text.toBytes (['\n'].intercalate newLines) ++
          b.text.bytesFrom r.stop ∧
        asHost.lineCount id w' = .ok (new.splitOn '\n').length w' ∧
        ∀ i, asHost.line id i w' = .ok (new.splitOn '\n')[i]? w') ∧
      (¬ b.text.HasRange r →
        asHost.setText id r newLines w = .error (.outOfBounds id r) w) := by
  refine ⟨?_, setText_error h⟩
  intro hr
  have hfits : Replacement.Fits ⟨r, newLines⟩ b.text := Replacement.fits_iff.2 hr
  obtain ⟨w', hw'⟩ : ∃ w', w' = { w with host := w.host.amended b ⟨r, newLines⟩ } := ⟨_, rfl⟩
  have hset : asHost.setText id r newLines w = .ok () w' := hw' ▸ setText_ok h hfits
  have hchanged : w'.host.buffer? id = some (b.amended ⟨r, newLines⟩) := hw' ▸ buffer?_amended h
  refine ⟨w', b.text.amended ⟨r, newLines⟩, hset, ?_, Text.toBytes_amended hfits, ?_, ?_⟩
  · rw [text?, hchanged]
    rfl
  · rw [← Text.lines_eq_splitOn]
    exact lineCount_ok hchanged
  · intro i
    rw [← Text.lines_eq_splitOn]
    exact line_ok hchanged i

/-- A range from behind a character of two bytes to the end of the next line, and one that starts
inside that character. -/
theorem setText_spliced_character :
    let t : Text := ['é', 'a', '\n', 'b']
    let w : World Editor := ⟨(Editor.empty.insertBuffer ⟨[]⟩ t).2, .empty⟩
    w.host.buffer? ⟨1⟩ = some (Buffer.new ⟨1⟩ ⟨[]⟩ t) ∧ t.HasRange ⟨⟨0, 2⟩, ⟨1, 1⟩⟩ ∧
      (∃ w' new, asHost.setText ⟨1⟩ ⟨⟨0, 2⟩, ⟨1, 1⟩⟩ [['x'], ['y']] w = .ok () w' ∧
        w'.host.text? ⟨1⟩ = some new ∧
        new.toBytes = t.bytesBefore ⟨0, 2⟩ ++ Text.toBytes ['x', '\n', 'y'] ++ t.bytesFrom ⟨1, 1⟩) ∧
      asHost.setText ⟨1⟩ ⟨⟨0, 1⟩, ⟨1, 1⟩⟩ [['x']] w =
        .error (.outOfBounds ⟨1⟩ ⟨⟨0, 1⟩, ⟨1, 1⟩⟩) w := by
  intro t w
  have hbuffer : w.host.buffer? ⟨1⟩ = some (Buffer.new ⟨1⟩ ⟨[]⟩ t) := rfl
  have hr : t.HasRange ⟨⟨0, 2⟩, ⟨1, 1⟩⟩ := by decide
  obtain ⟨w', new, hset, htext, hbytes, -⟩ :=
    (setText_spliced hbuffer ⟨⟨0, 2⟩, ⟨1, 1⟩⟩ [['x'], ['y']]).1 hr
  exact ⟨hbuffer, hr, ⟨w', new, hset, htext, hbytes⟩,
    (setText_spliced hbuffer ⟨⟨0, 1⟩, ⟨1, 1⟩⟩ [['x']]).2 (by decide)⟩

end Editor

end WorkspaceEditing
