import WorkspaceEditing.Proofs.Text.Exact

/-!
# Reading places that a text does not have

A server may name an offset past the end of a line, or one inside a character. Any place of a line
that exists is read as the end of the longest beginning of the text that does not go past it, and
that is an exact place again. Text behind the end of a beginning can only change the reading of
places behind that end.

## Main definitions

* `Protocol.Position.snapped` — the exact place that a place is read as.

## Main results

* `Encoding.column_eq_scan` — moving back from a byte offset is counting forward in bytes.
* `Text.isPrefix_upTo_iff` — the beginning in front of a place is the longest that ends there or
  before.
* `Protocol.Position.decode_of_line?` — a place is read as the end of the beginning in front of it.
* `Text.upTo_append_of_le` — what follows a beginning has no say in the places that it reaches.
-/

namespace WorkspaceEditing

open Protocol

namespace Encoding

/-! ## Columns -/

theorem lastBoundary_cons (c : Char) (t : Text) (n : Nat) :
    lastBoundary (c :: t) n =
      if c.utf8Size ≤ n then c.utf8Size + lastBoundary t (n - c.utf8Size) else 0 := by
  have hpos := Char.utf8Size_pos c
  induction n with
  | zero => simp [lastBoundary]; omega
  | succ n ih =>
    rw [lastBoundary, isCharBoundary, ih]
    by_cases hlt : n + 1 < c.utf8Size
    · simp [show ¬ c.utf8Size ≤ n + 1 by omega, show ¬ c.utf8Size ≤ n by omega]
    by_cases heq : n + 1 = c.utf8Size
    · simp [heq, isCharBoundary, lastBoundary]
    -- past the first character, both look one byte back in the rest
    obtain ⟨m, hm⟩ : ∃ m, n + 1 - c.utf8Size = m + 1 := ⟨n - c.utf8Size, by omega⟩
    have hback : n - c.utf8Size = m := by omega
    rw [hm, hback, lastBoundary]
    rw [if_pos (show c.utf8Size ≤ n by omega), if_pos (show c.utf8Size ≤ n + 1 by omega)]
    have hfits : c.utf8Size ≤ n + 1 := by omega
    by_cases hb : isCharBoundary t (m + 1) = true
    · simp [hb, hfits]
      omega
    · simp [hb]

/-- Moving back from a byte offset to the start of a character is counting forward in bytes. -/
theorem column_eq_scan (e : Encoding) (line : Text) (n : Nat) :
    e.column line n = e.columnByScan line n := by
  cases e with
  | utf16 => rfl
  | utf32 => rfl
  | utf8 =>
    show lastBoundary line (min n (Text.byteLength line)) = _
    induction line generalizing n with
    | nil => simp [lastBoundary, columnByScan]
    | cons c line ih =>
      rw [lastBoundary_cons, Text.byteLength_cons, columnByScan]
      by_cases hc : c.utf8Size ≤ n
      · have hmin : min n (c.utf8Size + Text.byteLength line) - c.utf8Size =
            min (n - c.utf8Size) (Text.byteLength line) := by omega
        rw [if_pos (by omega), hmin, ih, charLength, if_pos hc]
      · rw [if_neg (by omega), charLength, if_neg hc]

/-! ## Places of longer texts -/

variable {e : Encoding} {c : Char} {s m : Text}

theorem place_cons_break (e : Encoding) (s : Text) :
    e.place ('\n' :: s) = ⟨(e.place s).line + 1, (e.place s).character⟩ := by
  simp [place, Text.lastLine]

theorem place_cons_of_mem (hc : c ≠ '\n') (hs : '\n' ∈ s) : e.place (c :: s) = e.place s := by
  simp [place, Text.lastLine, hs, hc]

theorem place_cons_of_not_mem (hc : c ≠ '\n') (hs : '\n' ∉ s) :
    e.place (c :: s) = ⟨0, e.charLength c + e.units s⟩ := by
  rw [place_of_not_mem (by simp [hs, Ne.symm hc]), units]

theorem place_le_append (e : Encoding) (s m : Text) : e.place s ≤ e.place (s ++ m) := by
  rcases Position.le_total (e.place s) (e.place (s ++ m)) with h | h
  · exact h
  · rw [place_le_append_iff.1 h, List.append_nil]
    exact Position.le_iff.2 (.inr ⟨rfl, Nat.le_refl _⟩)

end Encoding

namespace Text

variable {e : Encoding} {s t x : Text} {p q : Position}

/-! ## The beginning in front of a place -/

/-- The beginning in front of a place does not go past it. -/
theorem place_upTo_le (e : Encoding) (t : Text) (p : Position) : e.place (t.upTo e p) ≤ p := by
  fun_induction upTo e t p with
  | case1 p => exact Position.le_iff.2 (by simp [Encoding.place, lastLine, Encoding.units]; omega)
  | case2 rest p hp =>
    exact Position.le_iff.2 (by simp [Encoding.place, lastLine, Encoding.units]; omega)
  | case3 rest p hp ih =>
    rw [Encoding.place_cons_break]
    grind
  | case4 c rest p hc hp hfits ih =>
    have hbreak : '\n' ∉ upTo e rest ⟨0, p.character - e.charLength c⟩ := by
      have hline : (e.place (upTo e rest ⟨0, p.character - e.charLength c⟩)).line = 0 := by grind
      exact List.count_eq_zero.1 hline
    rw [Encoding.place_of_not_mem hbreak] at ih
    rw [Encoding.place_cons_of_not_mem hc hbreak]
    grind
  | case5 c rest p hc hp hfits =>
    exact Position.le_iff.2 (by simp [Encoding.place, lastLine, Encoding.units]; omega)
  | case6 c rest p hc hp ih =>
    by_cases hbreak : '\n' ∈ upTo e rest p
    · rw [Encoding.place_cons_of_mem hc hbreak]
      exact ih
    · rw [Encoding.place_cons_of_not_mem hc hbreak]
      grind

/-- A beginning that does not go past a place is a beginning of the one in front of it. -/
theorem isPrefix_upTo_append (h : e.place s ≤ p) (x : Text) : s <+: (s ++ x).upTo e p := by
  induction s generalizing p with
  | nil => exact List.nil_prefix
  | cons c s ih =>
    rw [List.cons_append, upTo]
    by_cases hc : c = '\n'
    · subst hc
      rw [Encoding.place_cons_break] at h
      rw [if_pos rfl, if_neg (by grind), List.cons_prefix_cons]
      exact ⟨rfl, ih (by grind)⟩
    · rw [if_neg hc]
      by_cases hs : '\n' ∈ s
      · rw [Encoding.place_cons_of_mem hc hs] at h
        have hline : 0 < (e.place s).line := List.count_pos_iff.2 hs
        rw [if_neg (by grind), List.cons_prefix_cons]
        exact ⟨rfl, ih h⟩
      · rw [Encoding.place_cons_of_not_mem hc hs] at h
        have hplace := Encoding.place_of_not_mem (e := e) hs
        split_ifs with hp hfits
        · exact List.cons_prefix_cons.2 ⟨rfl, ih (by grind)⟩
        · grind
        · exact List.cons_prefix_cons.2 ⟨rfl, ih (by grind)⟩

/-- The beginning in front of a place is the longest that ends there or before. -/
theorem isPrefix_upTo_iff : s <+: t.upTo e p ↔ s <+: t ∧ e.place s ≤ p := by
  constructor
  · intro h
    refine ⟨h.trans (upTo_isPrefix e t p), ?_⟩
    obtain ⟨m, hm⟩ := h
    have hle := Encoding.place_le_append e s m
    rw [hm] at hle
    exact Position.le_trans hle (place_upTo_le e t p)
  · rintro ⟨⟨x, rfl⟩, h⟩
    exact isPrefix_upTo_append h x

/-- In front of a later place stands more. -/
theorem upTo_isPrefix_upTo (h : p ≤ q) : t.upTo e p <+: t.upTo e q :=
  isPrefix_upTo_iff.2 ⟨upTo_isPrefix e t p, Position.le_trans (place_upTo_le e t p) h⟩

/-- What follows a beginning has no say in the places that the beginning reaches. -/
theorem upTo_append_of_le (h : p ≤ e.place s) (x : Text) : (s ++ x).upTo e p = s.upTo e p := by
  have hshort : (s ++ x).upTo e p <+: s :=
    Encoding.prefix_of_place_le (upTo_isPrefix e _ p) (List.prefix_append s x)
      (Position.le_trans (place_upTo_le e _ p) h)
  have hle : (s ++ x).upTo e p <+: s.upTo e p :=
    isPrefix_upTo_iff.2 ⟨hshort, place_upTo_le e _ p⟩
  have hge : s.upTo e p <+: (s ++ x).upTo e p :=
    isPrefix_upTo_iff.2 ⟨(upTo_isPrefix e s p).trans (List.prefix_append s x), place_upTo_le e s p⟩
  exact hle.eq_of_length_le hge.length_le

/-- In front of an earlier place, a beginning is as the whole text is. -/
theorem upTo_upTo (h : p ≤ q) : (t.upTo e q).upTo e p = t.upTo e p := by
  have hle : (t.upTo e q).upTo e p <+: t.upTo e p :=
    isPrefix_upTo_iff.2 ⟨(upTo_isPrefix e _ p).trans (upTo_isPrefix e t q), place_upTo_le e _ p⟩
  have hge : t.upTo e p <+: (t.upTo e q).upTo e p :=
    isPrefix_upTo_iff.2 ⟨upTo_isPrefix_upTo h, place_upTo_le e t p⟩
  exact hle.eq_of_length_le hge.length_le

/-- Texts that are alike in front of a place are alike in front of every earlier one. -/
theorem upTo_congr (h : s.upTo e q = t.upTo e q) (hp : p ≤ q) : s.upTo e p = t.upTo e p := by
  rw [← upTo_upTo hp, h, upTo_upTo hp]

/-- Whole lines in front of a place are passed by. -/
theorem upTo_append_lines (hs : s.lastLine = []) (x : Text) (p : Position) :
    (s ++ x).upTo e ⟨s.count '\n' + p.line, p.character⟩ = s ++ x.upTo e p := by
  induction s with
  | nil => simp
  | cons c s ih =>
    have hm : '\n' ∈ c :: s := by
      by_contra hm
      simp [lastLine_of_not_mem hm] at hs
    rw [lastLine, if_pos hm] at hs
    rw [List.cons_append, upTo]
    by_cases hc : c = '\n'
    · subst hc
      have hline : ('\n' :: s).count '\n' + p.line - 1 = s.count '\n' + p.line := by
        simp only [List.count_cons_self]
        omega
      rw [if_pos rfl, if_neg (by simp), hline, ih hs, List.cons_append]
    · have hcount : (c :: s).count '\n' = s.count '\n' := by simp [hc]
      have hpos : 0 < s.count '\n' := hcount ▸ List.count_pos_iff.2 hm
      rw [if_neg hc, hcount, if_neg (by dsimp only; omega), ih hs, List.cons_append]

/-- On the first line, a place is reached by counting along the line. -/
theorem upTo_line (hs : '\n' ∉ s) (hx : x = [] ∨ x.head? = some '\n') (n : Nat) :
    ∃ u, (s ++ x).upTo e ⟨0, n⟩ = u ∧ u <+: s ∧ u.byteLength = e.columnByScan s n := by
  induction s generalizing n with
  | nil =>
    refine ⟨[], ?_, List.nil_prefix, rfl⟩
    rcases hx with rfl | hx
    · rfl
    · obtain ⟨rest, rfl⟩ := List.head?_eq_some_iff.1 hx
      rfl
  | cons c s ih =>
    obtain ⟨hc, hs⟩ := List.ne_and_not_mem_of_not_mem_cons hs
    rw [List.cons_append, upTo, if_neg (Ne.symm hc), if_pos rfl, Encoding.columnByScan]
    split_ifs with hfits
    · obtain ⟨u, hu, hleads, hlength⟩ := ih hs (n - e.charLength c)
      exact ⟨c :: u, by rw [hu], List.cons_prefix_cons.2 ⟨rfl, hleads⟩, by simp [hlength]⟩
    · exact ⟨[], rfl, List.nil_prefix, rfl⟩

end Text

/-! ## Reading -/

namespace Protocol.Position

variable {e : Encoding} {t line : Text} {p q : Position}

/-- A place of a line that exists is read as the end of the beginning in front of it. -/
theorem decode_of_line? (h : t.line? p.line = some line) :
    p.decode (some line) e = (t.upTo e p).extent := by
  obtain ⟨s, x, rfl, hs, hline, hx⟩ := Text.exists_of_line? h
  have hlast : s.lastLine = [] := Text.byteLength_eq_zero_iff.1 (congrArg BytePosition.column hs)
  have hcount : s.count '\n' = p.line := congrArg BytePosition.line hs
  obtain ⟨u, hu, hleads, hlength⟩ := Text.upTo_line (e := e) hline hx p.character
  have hupTo : (s ++ line ++ x).upTo e p = s ++ u := by
    have := Text.upTo_append_lines (e := e) hlast (line ++ x) ⟨0, p.character⟩
    rwa [hu, Nat.add_zero, hcount, ← List.append_assoc] at this
  have hbreak : '\n' ∉ u := fun hm => hline (hleads.subset hm)
  rw [hupTo, Text.extent_append, hs, Text.extent_of_not_mem hbreak, hlength, decode,
    e.column_eq_scan]
  ext <;> simp [BytePosition.column_add]

/-- The exact place that a place is read as: the end of its line if the offset is past that, and the
start of the character if it is inside one. -/
def snapped (p : Position) (e : Encoding) (t : Text) : Position := e.place (t.upTo e p)

theorem snapped_le (p : Position) (e : Encoding) (t : Text) : p.snapped e t ≤ p :=
  Text.place_upTo_le e t p

theorem line_snapped (h : p.line < t.lineCount) : (p.snapped e t).line = p.line := by
  obtain ⟨line, hline⟩ : ∃ line, t.line? p.line = some line := ⟨_, List.getElem?_eq_getElem h⟩
  have hdecode := congrArg BytePosition.line (decode_of_line? (e := e) hline)
  exact hdecode.symm

end Protocol.Position

end WorkspaceEditing
