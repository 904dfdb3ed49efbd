import WorkspaceEditing.Proofs.Text.Cut
import WorkspaceEditing.Proofs.Text.Exact

/-!
# The places of a text

A position names a place of a text if its line exists and no character of that line runs across its
column. These are the positions at which the text can be cut. Counted in bytes from the start of the
text, a place stands behind as many bytes as the text in front of it has, so that cutting the text
there is cutting its bytes.

## Main definitions

* `Text.HasPlace`, `Text.HasRange` — the positions that name a place, and the ranges between two.
* `Text.bytesBefore`, `Text.bytesFrom` — the bytes in front of a position and those from it on.

## Main results

* `Text.hasPlace_iff` — the places of a text are the ends of its beginnings.
* `Text.bytesBefore_extent`, `Text.bytesFrom_extent` — the bytes on the two sides of a place.
* `Text.lines_eq_splitOn` — the lines of a text are what it is split into at its line feeds.
-/

namespace WorkspaceEditing

namespace Text

variable {t s x : Text} {p : BytePosition}

/-- A position names a place of a text: its line exists, and a character of the line ends at its
column, or the line begins there. -/
def HasPlace (t : Text) (p : BytePosition) : Prop :=
  ∃ line, t.line? p.line = some line ∧ Encoding.isCharBoundary line p.column = true

instance (t : Text) (p : BytePosition) : Decidable (t.HasPlace p) :=
  decidable_of_iff ((t.line? p.line).any (Encoding.isCharBoundary · p.column) = true)
    (Option.any_eq_true _ _)

/-- The places of a text are the ends of its beginnings. -/
theorem hasPlace_iff : t.HasPlace p ↔ ∃ s x, t = s ++ x ∧ s.extent = p := by
  constructor
  · rintro ⟨line, hline, hcolumn⟩
    obtain ⟨u, y, rfl, hu⟩ := Encoding.isCharBoundary_iff.1 hcolumn
    obtain ⟨s, x, ht, hs, -⟩ :=
      Protocol.Position.exists_text_of_line? hline (List.prefix_append u y)
    exact ⟨s, x, ht, by rw [hs, hu]⟩
  · rintro ⟨s, x, rfl, rfl⟩
    exact ⟨_, line?_append s x, Encoding.isCharBoundary_iff.2 ⟨s.lastLine, x.firstLine, rfl, rfl⟩⟩

theorem hasPlace_append (s x : Text) : (s ++ x).HasPlace s.extent := hasPlace_iff.2 ⟨s, x, rfl, rfl⟩

theorem hasPlace_extent (t : Text) : t.HasPlace t.extent := by
  simpa using hasPlace_append t []

/-- A cursor may stand at every place. -/
theorem HasPlace.has (h : t.HasPlace p) : t.Has p := by
  obtain ⟨s, x, rfl, rfl⟩ := hasPlace_iff.1 h
  exact CutAt.has (k := 0) ⟨rfl, rfl, .inl rfl⟩

/-- The start of a line is a place. -/
theorem Has.hasPlace_of_column (h : t.Has p) (hcolumn : p.column = 0) : t.HasPlace p := by
  obtain ⟨line, hline, -⟩ := h
  exact ⟨line, hline, by rw [hcolumn]; cases line <;> rfl⟩

/-- A range can be replaced: both ends name places, and it does not end before it starts. -/
structure HasRange (t : Text) (r : ByteRange) : Prop where
  start : t.HasPlace r.start
  stop : t.HasPlace r.stop
  start_le_stop : r.start ≤ r.stop

instance (t : Text) (r : ByteRange) : Decidable (t.HasRange r) :=
  decidable_of_iff (t.HasPlace r.start ∧ t.HasPlace r.stop ∧ r.start ≤ r.stop)
    ⟨fun h => ⟨h.1, h.2.1, h.2.2⟩, fun h => ⟨h.start, h.stop, h.start_le_stop⟩⟩

/-- A range can be replaced exactly if it lies between the ends of two beginnings of the text. -/
theorem hasRange_iff {r : ByteRange} :
    t.HasRange r ↔ ∃ s m x, t = s ++ m ++ x ∧ r = ⟨s.extent, (s ++ m).extent⟩ := by
  constructor
  · rintro ⟨hstart, hstop, hle⟩
    obtain ⟨s, y, hs, hstart⟩ := hasPlace_iff.1 hstart
    obtain ⟨s', x, hs', hstop⟩ := hasPlace_iff.1 hstop
    rw [← hstart, ← hstop] at hle
    obtain ⟨m, rfl⟩ := prefix_of_extent_le ⟨y, hs.symm⟩ ⟨x, hs'.symm⟩ hle
    exact ⟨s, m, x, hs', by rw [hstart, hstop]⟩
  · rintro ⟨s, m, x, rfl, rfl⟩
    refine ⟨?_, hasPlace_append _ _, extent_le_append s m⟩
    rw [List.append_assoc]
    exact hasPlace_append _ _

/-! ## Bytes -/

@[simp] theorem toBytes_append (s t : Text) : toBytes (s ++ t) = s.toBytes ++ t.toBytes := by
  simp [toBytes]

@[simp] theorem size_toBytes (t : Text) : t.toBytes.size = t.byteLength := by
  induction t with
  | nil => rfl
  | cons c t ih =>
    rw [← List.singleton_append, toBytes_append, ByteArray.size_append, ih, byteLength_append]
    simp [toBytes, List.utf8Encode_singleton]

/-- A place stands behind the bytes of the text in front of it. -/
theorem offset_extent (s x : Text) : (s ++ x).offset s.extent = s.byteLength :=
  CutAt.offset_eq (k := 0) ⟨rfl, rfl, .inl rfl⟩

/-- The bytes of a text in front of a position. -/
def bytesBefore (t : Text) (p : BytePosition) : ByteArray := t.toBytes.extract 0 (t.offset p)

/-- The bytes of a text from a position on. -/
def bytesFrom (t : Text) (p : BytePosition) : ByteArray :=
  t.toBytes.extract (t.offset p) t.toBytes.size

theorem bytesBefore_extent (s x : Text) : (s ++ x).bytesBefore s.extent = s.toBytes := by
  rw [bytesBefore, offset_extent, toBytes_append,
    ByteArray.extract_append_eq_left s.size_toBytes.symm]

theorem bytesFrom_extent (s x : Text) : (s ++ x).bytesFrom s.extent = x.toBytes := by
  rw [bytesFrom, offset_extent, toBytes_append,
    ByteArray.extract_append_eq_right s.size_toBytes.symm ByteArray.size_append]

/-! ## Lines -/

/-- A text is made of lines by putting line feeds between them, -/
theorem ofLines_eq_intercalate (ls : List Text) : ofLines ls = ['\n'].intercalate ls := by
  induction ls with
  | nil => rfl
  | cons l ls ih =>
    cases ls with
    | nil => simp [ofLines]
    | cons next others =>
      rw [ofLines, joined_cons_cons, ← ofLines, ih]
      simp [List.intercalate]

/-- and split into them at its line feeds. -/
theorem lines_eq_splitOn (t : Text) : t.lines = List.splitOn '\n' t := by
  have hsplit : List.splitOn '\n' (['\n'].intercalate t.lines) = t.lines :=
    List.splitOn_intercalate '\n' (fun _ => not_mem_of_mem_pieces) t.lines_ne_nil
  rwa [← ofLines_eq_intercalate, ofLines_lines, eq_comm] at hsplit

end Text

end WorkspaceEditing
