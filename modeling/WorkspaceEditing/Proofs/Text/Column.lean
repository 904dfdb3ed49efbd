import WorkspaceEditing.Proofs.Text.Reading

/-!
# The column of an offset

A server's offset is read as the last column of the line, at the end of a character, that it has room
for. This settles the reading, and with it that a larger offset is never read as an earlier column,
that an offset past the end of the line is read as its end and one inside a character as its start,
and that the offset of a column is read as this column.

## Main definitions

* `Encoding.columnsWithin` — the columns of a line that an offset has room for.

## Main results

* `Encoding.isGreatest_column` — the column of an offset is the last of these.
* `Encoding.column_isGreatest` — what follows for each kind of offset.
-/

namespace WorkspaceEditing

namespace Encoding

variable {e : Encoding} {t s : Text} {c : Char} {n : Nat}

/-- The columns at which a character of a text ends, or the text begins, with no more than `n` code
units in front of them. -/
def columnsWithin (e : Encoding) (t : Text) (n : Nat) : Set Nat :=
  {b | ∃ s : Text, s <+: t ∧ s.byteLength = b ∧ e.units s ≤ n}

theorem byteLength_le_of_prefix (h : s <+: t) : s.byteLength ≤ t.byteLength := by
  obtain ⟨x, rfl⟩ := h
  simp

/-- A larger offset has room for more columns. -/
theorem columnsWithin_mono {n' : Nat} (h : n ≤ n') :
    e.columnsWithin t n ⊆ e.columnsWithin t n' := by
  rintro b ⟨s, hs, hb, hn⟩
  exact ⟨s, hs, hb, hn.trans h⟩

theorem columnsWithin_cons_of_lt (h : n < e.charLength c) : e.columnsWithin (c :: t) n = {0} := by
  ext b
  constructor
  · rintro ⟨s, hs, rfl, hn⟩
    cases s with
    | nil => rfl
    | cons d s =>
      obtain ⟨rfl, -⟩ := List.cons_prefix_cons.1 hs
      rw [units] at hn
      omega
  · rintro rfl
    exact ⟨[], List.nil_prefix, rfl, Nat.zero_le n⟩

theorem columnsWithin_cons_of_le (h : e.charLength c ≤ n) :
    e.columnsWithin (c :: t) n =
      insert 0 ((c.utf8Size + ·) '' e.columnsWithin t (n - e.charLength c)) := by
  ext b
  constructor
  · rintro ⟨s, hs, rfl, hn⟩
    cases s with
    | nil => exact .inl rfl
    | cons d s =>
      obtain ⟨rfl, hrest⟩ := List.cons_prefix_cons.1 hs
      rw [units] at hn
      exact .inr ⟨Text.byteLength s, ⟨s, hrest, rfl, by omega⟩, rfl⟩
  · rintro (rfl | ⟨_, ⟨s, hs, rfl, hn⟩, rfl⟩)
    · exact ⟨[], List.nil_prefix, rfl, Nat.zero_le n⟩
    · exact ⟨c :: s, List.cons_prefix_cons.2 ⟨rfl, hs⟩, rfl, by rw [units]; omega⟩

/-- Counting along a text stops at the last column that the offset has room for. -/
theorem isGreatest_columnByScan (e : Encoding) (t : Text) (n : Nat) :
    IsGreatest (e.columnsWithin t n) (e.columnByScan t n) := by
  induction t generalizing n with
  | nil =>
    refine ⟨⟨[], List.nil_prefix, rfl, Nat.zero_le n⟩, ?_⟩
    rintro b ⟨s, hs, rfl, -⟩
    simp [List.prefix_nil.1 hs]
  | cons c t ih =>
    by_cases hc : e.charLength c ≤ n
    · obtain ⟨hmem, hle⟩ := ih (n - e.charLength c)
      rw [columnByScan, if_pos hc, columnsWithin_cons_of_le hc]
      refine ⟨.inr ⟨_, hmem, rfl⟩, ?_⟩
      rintro b (rfl | ⟨k, hk, rfl⟩)
      · exact Nat.zero_le _
      · exact Nat.add_le_add_left (hle hk) _
    · rw [columnByScan, if_neg hc, columnsWithin_cons_of_lt (Nat.lt_of_not_le hc)]
      exact isGreatest_singleton

/-- An offset is read as the last column that it has room for. -/
theorem isGreatest_column (e : Encoding) (t : Text) (n : Nat) :
    IsGreatest (e.columnsWithin t n) (e.column t n) :=
  e.column_eq_scan t n ▸ e.isGreatest_columnByScan t n

theorem monotone_column (e : Encoding) (t : Text) : Monotone (e.column t) := by
  intro n n' h
  exact (e.isGreatest_column t n).mono (e.isGreatest_column t n') (columnsWithin_mono h)

/-- A beginning that an offset has room for, while it has none for anything longer, is what the
offset is read as. -/
theorem column_eq_of_prefix (hs : s <+: t) (hfits : e.units s ≤ n)
    (hlast : ∀ s' : Text, s' <+: t → e.units s' ≤ n → s' <+: s) : e.column t n = s.byteLength := by
  refine (e.isGreatest_column t n).unique ⟨⟨s, hs, rfl, hfits⟩, ?_⟩
  rintro b ⟨s', hs', rfl, hn⟩
  exact byteLength_le_of_prefix (hlast s' hs' hn)

/-- An offset inside a character is read as the start of that character. -/
theorem column_inside (e : Encoding) (s : Text) {c : Char} (x : Text) {k : Nat}
    (hk : k < e.charLength c) : e.column (s ++ c :: x) (e.units s + k) = s.byteLength := by
  refine column_eq_of_prefix (List.prefix_append s _) (Nat.le_add_right _ k) ?_
  intro s' hs' hn
  rcases List.prefix_or_prefix_of_prefix hs' (List.prefix_append s _) with h | ⟨m, rfl⟩
  · exact h
  · cases m with
    | nil => simp
    | cons d m =>
      -- what goes past the cut holds the whole character
      obtain ⟨rfl, -⟩ := List.cons_prefix_cons.1 ((List.prefix_append_right_inj s).1 hs')
      simp only [units_append, units] at hn
      omega

/-- For every text, every offset and every encoding, the column that is read is the last one at the
end of a character that the offset has room for. To move back from a byte offset gives the same as to
count forward in bytes; larger offsets are read as later columns or the same; offsets past the end are
read as the end, and offsets inside a character as its start; and the length of a beginning of the
text in code units is read as its length in bytes. -/
theorem column_isGreatest (e : Encoding) (t : Text) :
    (∀ n, IsGreatest (e.columnsWithin t n) (e.column t n)) ∧
      (∀ n, lastBoundary t (min n t.byteLength) = utf8.columnByScan t n) ∧
      Monotone (e.column t) ∧
      (∀ n, e.units t ≤ n → e.column t n = t.byteLength) ∧
      (∀ (s : Text) c x k, t = s ++ c :: x → k < e.charLength c →
        e.column t (e.units s + k) = s.byteLength) ∧
      ∀ s : Text, s <+: t → e.column t (e.units s) = s.byteLength := by
  refine ⟨e.isGreatest_column t, utf8.column_eq_scan t, e.monotone_column t, ?_, ?_, ?_⟩
  · intro n hn
    exact column_eq_of_prefix (List.prefix_refl t) hn fun _ hs' _ => hs'
  · rintro s c x k rfl hk
    exact e.column_inside s x hk
  · rintro s ⟨x, rfl⟩
    exact e.column_append s x

/-- A character of four bytes that takes two code units: its middle, its end, and past the end of the
text. -/
theorem column_isGreatest_wide :
    let t : Text := ['é', '😀', 'b']
    IsGreatest (utf16.columnsWithin t 2) 2 ∧
      utf16.column t 2 = 2 ∧ utf16.column t 3 = 6 ∧ utf16.column t 9 = 7 := by
  intro t
  obtain ⟨hgreatest, -, -, hpast, hinside, hends⟩ := column_isGreatest utf16 t
  exact ⟨hgreatest 2, hinside ['é'] '😀' ['b'] 1 rfl (by decide), hends ['é', '😀'] ⟨['b'], rfl⟩,
    hpast 9 (by decide)⟩

end Encoding

end WorkspaceEditing
