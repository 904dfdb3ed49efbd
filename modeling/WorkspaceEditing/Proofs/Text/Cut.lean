import WorkspaceEditing.Editor.Basic
import WorkspaceEditing.Proofs.Text.Extent

/-!
# Cuts of a text at any byte

A cursor may stand between two characters or, by bytes, inside one. Either way it cuts the text in
front of a character, and stands a number of bytes behind that cut. Counted in bytes from the start
of the text, it stands that far behind the first part.

## Main definitions

* `Text.Has` — the positions that a cursor may have.
* `Text.CutAt` — the two parts of a text at a position, and how far into the next character it is.
* `Text.offset` — a position as a number of bytes from the start of the text.

## Main results

* `Text.Has.exists_cutAt` — every position that a cursor may have cuts the text.
* `Text.CutAt.offset_eq` — the byte offset of a cut.
-/

namespace WorkspaceEditing

namespace Text

/-- A cursor may stand on any line, and no further than its end. -/
def Has (t : Text) (p : BytePosition) : Prop :=
  ∃ line, t.line? p.line = some line ∧ p.column ≤ line.byteLength

theorem holds_iff {t : Text} {p : BytePosition} : t.holds p = true ↔ t.Has p := by
  unfold holds lineLength? Has
  cases t.line? p.line with
  | none => simp
  | some line => simp

theorem has_origin (t : Text) : t.Has .origin :=
  ⟨_, line?_append [] t, Nat.zero_le _⟩

/-- The closest position is one that a cursor may have. -/
theorem has_closest (t : Text) (p : BytePosition) : t.Has (t.closest p) := by
  have hline : min p.line (t.lineCount - 1) < t.lineCount := by
    have : 0 < t.lineCount := by rw [lineCount_eq]; omega
    omega
  obtain ⟨line, hline⟩ : ∃ line, t.line? (min p.line (t.lineCount - 1)) = some line :=
    ⟨_, List.getElem?_eq_getElem hline⟩
  refine ⟨line, hline, ?_⟩
  simp only [closest, lineLength?, hline, Option.map_some, Option.getD_some]
  exact Nat.min_le_right _ _

/-- A position that a cursor may have is closest to itself. -/
theorem closest_of_has {t : Text} {p : BytePosition} (h : t.Has p) : t.closest p = p := by
  obtain ⟨line, hline, hcolumn⟩ := h
  have hlast : min p.line (t.lineCount - 1) = p.line := by
    obtain ⟨hlt, -⟩ := List.getElem?_eq_some_iff.1 hline
    unfold lineCount
    omega
  simp only [closest, hlast, lineLength?, hline, Option.map_some, Option.getD_some,
    Nat.min_eq_left hcolumn]

/-! ## Cuts -/

/-- `k` bytes lead into the first character of a text and not past it, or there are none. -/
def Inside (k : Nat) (x : Text) : Prop :=
  k = 0 ∨ ∃ c rest, x = c :: rest ∧ c ≠ '\n' ∧ k < c.utf8Size

/-- A position cuts the text between `s` and `x`, and stands `k` bytes behind the cut, inside of the
character there. -/
structure CutAt (t : Text) (p : BytePosition) (s : Text) (k : Nat) (x : Text) : Prop where
  text_eq : t = s ++ x
  position_eq : p = s.extent + ⟨0, k⟩
  inside : Inside k x

/-- A column of a line cuts it. -/
theorem exists_inside_of_le {line : Text} (hline : '\n' ∉ line) {n : Nat}
    (h : n ≤ line.byteLength) :
    ∃ s x k, line = s ++ x ∧ n = s.byteLength + k ∧ Inside k x := by
  induction line generalizing n with
  | nil =>
    obtain rfl : n = 0 := by simpa using h
    exact ⟨[], [], 0, rfl, rfl, .inl rfl⟩
  | cons c line ih =>
    obtain ⟨hc, hrest⟩ := List.ne_and_not_mem_of_not_mem_cons hline
    by_cases hn : n < c.utf8Size
    · exact ⟨[], c :: line, n, rfl, by simp, .inr ⟨c, line, rfl, Ne.symm hc, hn⟩⟩
    · rw [byteLength_cons] at h
      obtain ⟨s, x, k, rfl, hnk, hk⟩ := ih hrest (n := n - c.utf8Size) (by omega)
      exact ⟨c :: s, x, k, rfl, by simp; omega, hk⟩

/-- Every position that a cursor may have cuts the text. -/
theorem Has.exists_cutAt {t : Text} {p : BytePosition} (h : t.Has p) :
    ∃ s k x, t.CutAt p s k x := by
  obtain ⟨line, hline, hp⟩ := h
  obtain ⟨b, a, rfl, hb, hl, -⟩ := exists_of_line? hline
  obtain ⟨s, x, k, rfl, hcolumn, hk⟩ := exists_inside_of_le hl hp
  have hs : '\n' ∉ s := fun hm => hl (List.mem_append_left _ hm)
  refine ⟨b ++ s, k, x ++ a, by simp, ?_, ?_⟩
  · rw [extent_append, hb, extent_of_not_mem hs]
    ext
    · simp
    · simp [BytePosition.column_add, hcolumn]
  · rcases hk with rfl | ⟨c, rest, rfl, hc, hk⟩
    · exact .inl rfl
    · exact .inr ⟨c, rest ++ a, rfl, hc, hk⟩

/-- A position that cuts a text is one that a cursor may have. -/
theorem CutAt.has {t s x : Text} {p : BytePosition} {k : Nat} (h : t.CutAt p s k x) : t.Has p := by
  obtain ⟨rfl, rfl, hk⟩ := h
  refine ⟨s.lastLine ++ x.firstLine, line?_append s x, ?_⟩
  have hle : k ≤ x.firstLine.byteLength := by
    rcases hk with rfl | ⟨c, rest, rfl, hc, hk⟩
    · exact Nat.zero_le _
    · rw [show c :: rest = [c] ++ rest from rfl,
        firstLine_append_of_not_mem (by simp [Ne.symm hc]), byteLength_append]
      simp
      omega
  simp only [BytePosition.column_add, if_true, byteLength_append]
  exact Nat.add_le_add_left hle _

/-- A beginning of the text that ends in front of the position is one of the first part. -/
theorem CutAt.prefix_of_lt {t s x u : Text} {p : BytePosition} {k : Nat} (h : t.CutAt p s k x)
    (hu : u <+: t) (hlt : u.extent < p) : u <+: s := by
  obtain ⟨rfl, rfl, hk⟩ := h
  rcases List.prefix_or_prefix_of_prefix hu (List.prefix_append s x) with hp | ⟨m, rfl⟩
  · exact hp
  · cases m with
    | nil => simp
    | cons c m =>
      -- the character behind the cut is longer than the position leads into it
      rw [extent_append, BytePosition.add_lt_add_iff_left, BytePosition.lt_def] at hlt
      rcases hk with rfl | ⟨c', rest, rfl, hc, hk⟩
      · dsimp only at hlt
        omega
      · obtain rfl : c = c' := by
          have := (List.prefix_append_right_inj s).1 hu
          exact (List.cons_prefix_cons.1 this).1
        have hle := extent_le_append [c] m
        rw [extent_of_not_mem (by simp [Ne.symm hc]), BytePosition.le_def] at hle
        simp only [byteLength_cons, byteLength_nil, List.singleton_append] at hle hlt
        omega

/-- A beginning of a text that ends so far behind a shorter one goes on from it by as much. -/
theorem exists_append_of_extent_le {s x u : Text} (hu : u <+: s ++ x) {d : BytePosition}
    (hle : s.extent + d ≤ u.extent) : ∃ m, u = s ++ m ∧ d ≤ extent m := by
  rcases List.prefix_or_prefix_of_prefix (List.prefix_append s x) hu with ⟨m, rfl⟩ | ⟨m, rfl⟩
  · rw [extent_append, BytePosition.add_le_add_iff_left] at hle
    exact ⟨m, rfl, hle⟩
  · have hmd : extent m + d ≤ .origin := by
      rw [extent_append, BytePosition.add_assoc] at hle
      rwa [← BytePosition.add_le_add_iff_left (p := extent u), BytePosition.add_origin]
    have hm : m = [] := by
      by_contra hne
      have hlt := BytePosition.lt_add (mt extent_eq_origin_iff.1 hne) .origin
      rw [BytePosition.origin_add, ← BytePosition.not_le] at hlt
      exact hlt (BytePosition.le_trans (BytePosition.le_add _ _) hmd)
    subst hm
    refine ⟨[], by simp, ?_⟩
    rwa [extent_nil, BytePosition.origin_add] at hmd

/-- All beginnings of the text that end at the position or behind it go on from the first part in
the same way, as far as the position leads. -/
theorem CutAt.exists_common {t s x : Text} {p : BytePosition} {k : Nat} (h : t.CutAt p s k x) :
    ∃ m, (k = 0 ∨ m ≠ [] ∧ m.head? = x.head?) ∧ Inside k m ∧
      ∀ u : Text, u <+: t → p ≤ u.extent → s ++ m <+: u := by
  obtain ⟨rfl, rfl, hk⟩ := h
  by_cases h0 : k = 0
  · refine ⟨[], .inl h0, .inl h0, ?_⟩
    intro u hu hle
    obtain ⟨m, rfl, -⟩ := exists_append_of_extent_le hu hle
    simp
  · obtain ⟨c, rest, rfl, hc, hk⟩ := hk.resolve_left h0
    refine ⟨[c], .inr ⟨by simp, rfl⟩, .inr ⟨c, [], rfl, hc, hk⟩, ?_⟩
    intro u hu hle
    obtain ⟨m, rfl, hm⟩ := exists_append_of_extent_le hu hle
    cases m with
    | nil =>
      simp only [extent_nil, BytePosition.origin, BytePosition.le_def] at hm
      omega
    | cons d m =>
      have hd := (List.prefix_append_right_inj s).1 hu
      obtain rfl := (List.cons_prefix_cons.1 hd).1
      exact ⟨m, by simp⟩

theorem Inside.append {k : Nat} {m : Text} (h : Inside k m) (y : Text) : Inside k (m ++ y) := by
  rcases h with rfl | ⟨c, rest, rfl, hc, hk⟩
  · exact .inl rfl
  · exact .inr ⟨c, rest ++ y, rfl, hc, hk⟩

/-! ## Byte offsets -/

/-- A position as a number of bytes from the start of the text, line feeds counted. -/
def offset (t : Text) (p : BytePosition) : Nat :=
  ((t.lines.take p.line).map fun line => line.byteLength + 1).sum + p.column

/-- A text is as long as its lines, its line feeds counted. -/
theorem byteLength_eq_sum (t : Text) :
    t.byteLength = (t.lines.dropLast.map fun line => line.byteLength + 1).sum +
      t.lastLine.byteLength := by
  induction t with
  | nil => rfl
  | cons c t ih =>
    by_cases hc : c = '\n'
    · subst hc
      have hlines : lines ('\n' :: t) = [] :: lines t := pieces_cons_sep '\n' t
      have hsize : Char.utf8Size '\n' = 1 := rfl
      rw [byteLength_cons, hlines, List.dropLast_cons_of_ne_nil (lines_ne_nil t), lastLine,
        if_pos List.mem_cons_self, ih, List.map_cons, List.sum_cons, hsize, byteLength_nil]
      omega
    · obtain ⟨first, others, ht, hct⟩ := pieces_cons_of_ne hc t
      have hlines : lines (c :: t) = (c :: first) :: others := hct
      rw [lines, ht] at ih
      rw [byteLength_cons, hlines, ih]
      cases others with
      | nil =>
        have hmem : '\n' ∉ t := by
          have hlength := length_pieces '\n' t
          rw [ht] at hlength
          exact List.count_eq_zero.1 (by simpa using hlength.symm)
        rw [lastLine_of_not_mem hmem, lastLine_of_not_mem (by simp [hmem, Ne.symm hc])]
        simp
      | cons next others =>
        have hmem : '\n' ∈ t := by
          have hlength := length_pieces '\n' t
          rw [ht] at hlength
          exact List.count_pos_iff.1 (by simp at hlength; omega)
        rw [lastLine, if_pos (List.mem_cons_of_mem c hmem)]
        simp
        omega

/-- A cut stands behind the bytes of the first part. -/
theorem CutAt.offset_eq {t s x : Text} {p : BytePosition} {k : Nat} (h : t.CutAt p s k x) :
    t.offset p = s.byteLength + k := by
  obtain ⟨rfl, rfl, -⟩ := h
  have hlength : s.lines.dropLast.length = s.extent.line := by
    rw [List.length_dropLast, ← lineCount, lineCount_eq_extent]
    rfl
  have htake : (s ++ x).lines.take s.extent.line = s.lines.dropLast := by
    rw [lines_append, ← hlength, List.take_left]
  have hcolumn : (s.extent + ⟨0, k⟩ : BytePosition).column = s.lastLine.byteLength + k := rfl
  rw [offset, BytePosition.line_add, Nat.add_zero, htake, byteLength_eq_sum s, hcolumn]
  omega

end Text

end WorkspaceEditing
