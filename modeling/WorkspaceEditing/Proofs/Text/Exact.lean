import WorkspaceEditing.Proofs.Text.Extent
import WorkspaceEditing.Protocol.Position

/-!
# Exact places of a server

A server's place is exact in a text if its line exists and its offset is the number of code units
of some whole-character beginning of that line. Such a place belongs to one beginning of the text,
and reading it gives the buffer position at which that beginning ends. Reading any other offset of
an existing line gives the end of some beginning as well, so a read position can always be cut at.

## Main definitions

* `Encoding.place` — the place of the end of a text, as a server names it.
* `Protocol.Position.IsExact` — a place that a text has.
* `Text.upTo` — the beginning of a text in front of a place.

## Main results

* `Protocol.Position.isExact_iff` — the exact places are those of the beginnings of the text.
* `Protocol.Position.decode_place` — reading the place of a beginning gives its extent.
* `Protocol.Position.exists_decode` — reading any offset of a line gives some extent.
-/

namespace WorkspaceEditing

open Protocol

namespace Protocol.Position

/-- At the same place or earlier. -/
instance : LE Position where
  le p q := q.before p = false

instance (p q : Position) : Decidable (p ≤ q) := inferInstanceAs (Decidable (q.before p = false))

@[grind =] theorem le_iff {p q : Position} :
    p ≤ q ↔ p.line < q.line ∨ (p.line = q.line ∧ p.character ≤ q.character) := by
  show q.before p = false ↔ _
  rw [Bool.eq_false_iff, Ne, before_iff]
  omega

theorem le_trans {p q r : Position} (h : p ≤ q) (h' : q ≤ r) : p ≤ r := by
  grind

theorem le_antisymm {p q : Position} (h : p ≤ q) (h' : q ≤ p) : p = q := by
  cases p; cases q
  grind

theorem le_total (p q : Position) : p ≤ q ∨ q ≤ p := by
  grind

end Protocol.Position

namespace Encoding

/-- The place at which a text ends, as a server names it. -/
def place (e : Encoding) (t : Text) : Position := ⟨t.count '\n', e.units t.lastLine⟩

@[simp] theorem place_line (e : Encoding) (t : Text) : (e.place t).line = t.extent.line := rfl

theorem units_eq_zero_iff {e : Encoding} {t : Text} : e.units t = 0 ↔ t = [] := by
  cases t with
  | nil => simp [units]
  | cons c t => have := e.charLength_pos c; simp [units]; omega

theorem place_of_not_mem {e : Encoding} {t : Text} (h : '\n' ∉ t) : e.place t = ⟨0, e.units t⟩ := by
  rw [place, Text.lastLine_of_not_mem h, List.count_eq_zero.2 h]

/-- A longer beginning of a text ends at a later place. -/
theorem place_le_append_iff {e : Encoding} {s m : Text} : e.place (s ++ m) ≤ e.place s ↔ m = [] := by
  rw [Position.le_iff]
  by_cases h : '\n' ∈ m
  · have hpos := List.count_pos_iff.2 h
    have hne : m ≠ [] := List.ne_nil_of_mem h
    simp only [place, List.count_append, hne, iff_false]
    omega
  · have hcount := List.count_eq_zero.2 h
    simp only [place, List.count_append, hcount, Text.lastLine_append_of_not_mem h, units_append]
    rw [← units_eq_zero_iff (e := e) (t := m)]
    omega

/-- Of two beginnings of a text, the one that ends no later is a beginning of the other. -/
theorem prefix_of_place_le {e : Encoding} {s s' t : Text} (hs : s <+: t) (hs' : s' <+: t)
    (h : e.place s ≤ e.place s') : s <+: s' := by
  rcases List.prefix_or_prefix_of_prefix hs hs' with hp | ⟨m, rfl⟩
  · exact hp
  · simp [place_le_append_iff.1 h]

/-! ## Columns -/

theorem columnByScan_append (e : Encoding) (s x : Text) :
    e.columnByScan (s ++ x) (e.units s) = s.byteLength := by
  induction s with
  | nil =>
    cases x with
    | nil => rfl
    | cons c x => have := e.charLength_pos c; simp [columnByScan, units]; omega
  | cons c s ih => simp [columnByScan, units, ih]

theorem exists_columnByScan (e : Encoding) (line : Text) (n : Nat) :
    ∃ s x, line = s ++ x ∧ e.columnByScan line n = s.byteLength := by
  induction line generalizing n with
  | nil => exact ⟨[], [], rfl, rfl⟩
  | cons c line ih =>
    by_cases hc : e.charLength c ≤ n
    · obtain ⟨s, x, rfl, hs⟩ := ih (n - e.charLength c)
      exact ⟨c :: s, x, rfl, by simp [columnByScan, hc, hs]⟩
    · exact ⟨[], c :: line, rfl, by simp [columnByScan, hc]⟩

/-- A character ends at a byte offset exactly if a beginning of the text is that long. -/
theorem isCharBoundary_iff {t : Text} {n : Nat} :
    isCharBoundary t n = true ↔ ∃ s x, t = s ++ x ∧ s.byteLength = n := by
  induction t generalizing n with
  | nil =>
    cases n with
    | zero => simp [isCharBoundary]
    | succ n => simp [isCharBoundary]
  | cons c t ih =>
    cases n with
    | zero => exact iff_of_true rfl ⟨[], c :: t, rfl, rfl⟩
    | succ n =>
      simp only [isCharBoundary, Bool.and_eq_true, decide_eq_true_eq, ih]
      constructor
      · rintro ⟨hc, s, x, rfl, hs⟩
        exact ⟨c :: s, x, rfl, by simp [hs]; omega⟩
      · rintro ⟨s, x, hst, hs⟩
        cases s with
        | nil => simp at hs
        | cons d s =>
          obtain ⟨rfl, rfl⟩ := List.cons.inj hst
          rw [Text.byteLength_cons] at hs
          exact ⟨by omega, s, x, rfl, by omega⟩

theorem isCharBoundary_lastBoundary (t : Text) (n : Nat) :
    isCharBoundary t (lastBoundary t n) = true := by
  induction n with
  | zero => cases t <;> rfl
  | succ n ih =>
    rw [lastBoundary]
    split
    · assumption
    · exact ih

/-- Every column that is read is the length of a beginning of the line. -/
theorem exists_column (e : Encoding) (line : Text) (n : Nat) :
    ∃ s x, line = s ++ x ∧ e.column line n = s.byteLength := by
  cases e with
  | utf8 =>
    obtain ⟨s, x, hl, hs⟩ :=
      isCharBoundary_iff.1 (isCharBoundary_lastBoundary line (min n line.byteLength))
    exact ⟨s, x, hl, hs.symm⟩
  | utf16 => exact exists_columnByScan _ line n
  | utf32 => exact exists_columnByScan _ line n

theorem column_le (e : Encoding) (line : Text) (n : Nat) : e.column line n ≤ line.byteLength := by
  obtain ⟨s, x, rfl, hs⟩ := e.exists_column line n
  rw [hs, Text.byteLength_append]
  exact Nat.le_add_right _ _

/-- The code units of a beginning of a line are read as its bytes. -/
theorem column_append (e : Encoding) (s x : Text) :
    e.column (s ++ x) (e.units s) = s.byteLength := by
  cases e with
  | utf8 =>
    have hmin : min (utf8.units s) (Text.byteLength (s ++ x)) = s.byteLength := by simp
    show lastBoundary (s ++ x) (min (utf8.units s) (Text.byteLength (s ++ x))) = s.byteLength
    rw [hmin]
    cases hn : s.byteLength with
    | zero => rfl
    | succ n =>
      have hb : isCharBoundary (s ++ x) (n + 1) = true := isCharBoundary_iff.2 ⟨s, x, rfl, hn⟩
      rw [lastBoundary, if_pos hb]
  | utf16 => exact columnByScan_append _ s x
  | utf32 => exact columnByScan_append _ s x

end Encoding

namespace Protocol.Position

/-- A place that a text has: its line exists, and its offset is the number of code units of a
beginning of that line. -/
def IsExact (e : Encoding) (t : Text) (p : Position) : Prop :=
  ∃ line, t.line? p.line = some line ∧ ∃ s, s <+: line ∧ e.units s = p.character

theorem exists_text_of_line? {t line s : Text} {n : Nat} (h : t.line? n = some line)
    (hs : s <+: line) :
    ∃ s' x, t = s' ++ x ∧ s'.extent = ⟨n, s.byteLength⟩ ∧ s'.lastLine = s := by
  obtain ⟨y, rfl⟩ := hs
  obtain ⟨b, x, rfl, hb, hl, -⟩ := Text.exists_of_line? h
  have hs : '\n' ∉ s := fun hm => hl (List.mem_append_left _ hm)
  have hlast : b.lastLine = [] := Text.byteLength_eq_zero_iff.1 (congrArg BytePosition.column hb)
  refine ⟨b ++ s, y ++ x, by simp, ?_, ?_⟩
  · rw [Text.extent_append, hb, Text.extent_of_not_mem hs]
    ext <;> simp [BytePosition.column_add]
  · rw [Text.lastLine_append_of_not_mem hs, hlast, List.nil_append]

/-- The exact places of a text are those at which its beginnings end. -/
theorem isExact_iff {e : Encoding} {t : Text} {p : Position} :
    p.IsExact e t ↔ ∃ s x, t = s ++ x ∧ e.place s = p := by
  constructor
  · rintro ⟨line, hline, s, hs, hunits⟩
    obtain ⟨s', x, rfl, hext, hlast⟩ := exists_text_of_line? hline hs
    refine ⟨s', x, rfl, ?_⟩
    rw [Encoding.place, hlast, hunits]
    have : s'.count '\n' = p.line := congrArg BytePosition.line hext
    rw [this]
  · rintro ⟨s, x, rfl, rfl⟩
    exact ⟨_, Text.line?_append s x, s.lastLine, List.prefix_append .., rfl⟩

@[simp] theorem line_decode (p : Position) (lineText : Option Text) (e : Encoding) :
    (p.decode lineText e).line = p.line := by
  cases lineText <;> rfl

/-- Reading the place of a beginning gives the position at which it ends. -/
theorem decode_place (e : Encoding) (s x : Text) :
    (e.place s).decode ((s ++ x).line? (e.place s).line) e = s.extent := by
  rw [Encoding.place_line, Text.line?_append, decode, Encoding.place, Encoding.column_append]
  rfl

/-- Reading any offset of a line gives the position at which some beginning of the text ends. -/
theorem exists_decode {t line : Text} {p : Position} (h : t.line? p.line = some line)
    (e : Encoding) : ∃ s x, t = s ++ x ∧ p.decode (some line) e = s.extent := by
  obtain ⟨s, y, rfl, hs⟩ := e.exists_column line p.character
  obtain ⟨s', x, ht, hext, -⟩ := exists_text_of_line? h (List.prefix_append s y)
  exact ⟨s', x, ht, by rw [hext, decode, hs]⟩

end Protocol.Position

namespace Text

/-! ## The beginning in front of a place -/

/-- The beginning of a text in front of a server's place: all lines before its own, and of its own
as many characters as its offset has room for. -/
def upTo (e : Encoding) : Text → Position → Text
  | [], _ => []
  | c :: rest, p =>
    if c = '\n' then
      if p.line = 0 then [] else c :: upTo e rest ⟨p.line - 1, p.character⟩
    else if p.line = 0 then
      if e.charLength c ≤ p.character then
        c :: upTo e rest ⟨0, p.character - e.charLength c⟩
      else []
    else c :: upTo e rest p

/-- In front of the place of a beginning stands that beginning. -/
@[simp] theorem upTo_place (e : Encoding) (s x : Text) : (s ++ x).upTo e (e.place s) = s := by
  induction s with
  | nil =>
    cases x with
    | nil => rfl
    | cons c x =>
      have := e.charLength_pos c
      by_cases hc : c = '\n' <;> simp [upTo, Encoding.place, lastLine, Encoding.units, hc]
      omega
  | cons c s ih =>
    by_cases hc : c = '\n'
    · subst hc
      have hp : e.place ('\n' :: s) = ⟨(e.place s).line + 1, (e.place s).character⟩ := by
        simp [Encoding.place, lastLine]
      rw [List.cons_append, upTo, if_pos rfl, hp, if_neg (Nat.succ_ne_zero _)]
      exact congrArg _ ih
    · by_cases hs : '\n' ∈ s
      · have hp : e.place (c :: s) = e.place s := by
          simp [Encoding.place, lastLine, hs, hc]
        have hl : (e.place s).line ≠ 0 := mt List.count_eq_zero.1 (not_not.2 hs)
        rw [List.cons_append, upTo, if_neg hc, hp, if_neg hl, ih]
      · have hcs : '\n' ∉ c :: s := by simp [hs, Ne.symm hc]
        rw [Encoding.place_of_not_mem hs] at ih
        simp [upTo, Encoding.place_of_not_mem hcs, hc, Encoding.units, ih]

theorem upTo_isPrefix (e : Encoding) (t : Text) (p : Position) : t.upTo e p <+: t := by
  fun_induction upTo e t p <;> simp_all

/-- A place is exact if the beginning in front of it ends there. -/
theorem place_upTo_eq_iff {e : Encoding} {t : Text} {p : Position} :
    e.place (t.upTo e p) = p ↔ p.IsExact e t := by
  constructor
  · intro h
    obtain ⟨x, hx⟩ := upTo_isPrefix e t p
    exact Position.isExact_iff.2 ⟨t.upTo e p, x, hx.symm, h⟩
  · intro h
    obtain ⟨s, x, rfl, rfl⟩ := Position.isExact_iff.1 h
    rw [upTo_place]

instance (e : Encoding) (t : Text) (p : Position) : Decidable (p.IsExact e t) :=
  decidable_of_iff _ place_upTo_eq_iff

end Text

end WorkspaceEditing
