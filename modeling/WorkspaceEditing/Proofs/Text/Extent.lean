import Mathlib
import WorkspaceEditing.Text.Splice

/-!
# How far a text reaches

A text that is read from some place on ends at another place: each line feed leads to the start of
the next line, and every other character leads on by its bytes. Places can therefore be added up
as texts are appended, and the places of a text are exactly those that its beginnings reach.

## Main definitions

* `Text.lastLine`, `Text.firstLine` — a text behind its last and in front of its first line feed.
* `BytePosition.add` — the place that is reached from one place by going on as far as another.
* `Text.extent` — the place at which a text ends.

## Main results

* `Text.extent_append` — extents add up.
* `Text.splitAt?_eq_some_iff` — a text can be cut at the extents of its beginnings only.
* `Text.replace?_eq_some_iff` — what replacing a range of a text does.
* `Text.line?_append` — the line that runs across a cut.
-/

namespace WorkspaceEditing

/-! ## Pieces of an appended list -/

section

variable {α : Type} [DecidableEq α]

/-- Where two lists meet, the last piece of the one and the first piece of the other are joined. -/
theorem pieces_append (sep : α) (s t : List α) :
    pieces sep (s ++ t) =
      (pieces sep s).dropLast ++
        ((pieces sep s).getLastD [] ++ (pieces sep t).headD []) :: (pieces sep t).tail := by
  induction s with
  | nil =>
    cases h : pieces sep t with
    | nil => exact absurd h (pieces_ne_nil sep t)
    | cons first others => simp [h]
  | cons a s ih =>
    by_cases ha : a = sep
    · subst ha
      obtain ⟨first, others, hs⟩ := List.exists_cons_of_ne_nil (pieces_ne_nil a s)
      rw [List.cons_append, pieces_cons_sep, pieces_cons_sep, ih, hs]
      simp
    · obtain ⟨first, others, hs, has⟩ := pieces_cons_of_ne ha s
      obtain ⟨first', others', hst, hast⟩ := pieces_cons_of_ne ha (s ++ t)
      rw [hs] at ih
      rw [List.cons_append, hast, has]
      rw [hst] at ih
      cases others with
      | nil => simp_all
      | cons next others => simp_all

/-- A separator between two lists keeps their pieces apart. -/
theorem pieces_append_cons_sep (sep : α) (s t : List α) :
    pieces sep (s ++ sep :: t) = pieces sep s ++ pieces sep t := by
  induction s with
  | nil => simp
  | cons a s ih =>
    by_cases ha : a = sep
    · subst ha; simp [ih]
    · obtain ⟨first, others, hs, has⟩ := pieces_cons_of_ne ha s
      obtain ⟨first', others', hst, hast⟩ := pieces_cons_of_ne ha (s ++ sep :: t)
      rw [ih, hs, List.cons_append] at hst
      obtain ⟨rfl, rfl⟩ := List.cons.inj hst
      rw [List.cons_append, hast, has, List.cons_append]

end

namespace Text

/-! ## First and last lines -/

/-- A text up to its first line feed. -/
def firstLine (t : Text) : Text := t.takeWhile (· ≠ '\n')

/-- A text behind its last line feed. -/
def lastLine : Text → Text
  | [] => []
  | c :: rest => if '\n' ∈ c :: rest then lastLine rest else c :: rest

theorem lastLine_of_not_mem {t : Text} (h : '\n' ∉ t) : t.lastLine = t := by
  cases t with
  | nil => rfl
  | cons c t => simp [lastLine, h]

theorem lastLine_append_of_mem {t : Text} (h : '\n' ∈ t) (s : Text) :
    (s ++ t).lastLine = t.lastLine := by
  induction s with
  | nil => rfl
  | cons c s ih =>
    rw [List.cons_append, lastLine, if_pos (by simp [h]), ih]

theorem lastLine_append_of_not_mem {t : Text} (h : '\n' ∉ t) (s : Text) :
    (s ++ t).lastLine = s.lastLine ++ t := by
  induction s with
  | nil => simpa [lastLine] using lastLine_of_not_mem h
  | cons c s ih =>
    by_cases hc : '\n' ∈ c :: s
    · rw [List.cons_append, lastLine, lastLine, if_pos (by simp_all), if_pos hc, ih]
    · rw [lastLine_of_not_mem hc, lastLine_of_not_mem (by simp_all)]

theorem not_mem_lastLine (t : Text) : '\n' ∉ t.lastLine := by
  fun_induction lastLine t <;> simp_all

/-- Behind its last line feed a text ends with its last line. -/
theorem exists_append_lastLine (t : Text) :
    ∃ s, t = s ++ t.lastLine ∧ s.lastLine = [] ∧ s.count '\n' = t.count '\n' := by
  induction t with
  | nil => exact ⟨[], rfl, rfl, rfl⟩
  | cons c t ih =>
    obtain ⟨s, hs, hlast, hcount⟩ := ih
    by_cases hc : '\n' ∈ c :: t
    · refine ⟨c :: s, ?_, ?_, ?_⟩
      · rw [lastLine, if_pos hc, List.cons_append, ← hs]
      · by_cases hs' : '\n' ∈ s
        · rw [← List.singleton_append, lastLine_append_of_mem hs', hlast]
        · rw [lastLine_of_not_mem hs'] at hlast
          have hlf : c = '\n' := by
            rcases List.mem_cons.1 hc with rfl | hm
            · rfl
            · rw [hs, hlast, List.nil_append] at hm
              exact absurd hm (not_mem_lastLine t)
          subst hlast hlf
          simp [lastLine]
      · simp only [List.count_cons, hcount]
    · refine ⟨[], ?_, rfl, ?_⟩
      · rw [lastLine_of_not_mem hc, List.nil_append]
      · simp [List.count_eq_zero.2 hc]

theorem firstLine_append_of_not_mem {s : Text} (h : '\n' ∉ s) (t : Text) :
    (s ++ t).firstLine = s ++ t.firstLine := by
  rw [firstLine, List.takeWhile_append_of_pos]
  · rfl
  · intro c hc
    have : c ≠ '\n' := fun e => h (e ▸ hc)
    simpa using this

/-- A text without a first line is empty or starts with a line feed. -/
theorem firstLine_eq_nil_iff {t : Text} : t.firstLine = [] ↔ t = [] ∨ t.head? = some '\n' := by
  cases t with
  | nil => simp [firstLine]
  | cons c t => by_cases h : c = '\n' <;> simp [firstLine, h]

theorem headD_lines (t : Text) : t.lines.headD [] = t.firstLine := by
  induction t with
  | nil => rfl
  | cons c t ih =>
    by_cases h : c = '\n'
    · subst h; simp [lines, firstLine]
    · obtain ⟨first, others, ht, hct⟩ := pieces_cons_of_ne h t
      simp only [lines, ht, List.headD_cons] at ih
      simp [lines, hct, ih, firstLine, h]

theorem getLastD_lines (t : Text) : t.lines.getLastD [] = t.lastLine := by
  induction t with
  | nil => rfl
  | cons c t ih =>
    by_cases h : c = '\n'
    · subst h
      obtain ⟨first, others, ht⟩ := List.exists_cons_of_ne_nil (lines_ne_nil t)
      rw [ht] at ih
      rw [lines, pieces_cons_sep, ← lines, ht, lastLine, if_pos (by simp), ← ih]
      simp
    · obtain ⟨first, others, ht, hct⟩ := pieces_cons_of_ne h t
      rw [lines, hct]
      rw [lines, ht] at ih
      cases others with
      | nil =>
        have hn : '\n' ∉ t := by
          have := length_pieces '\n' t
          rw [ht] at this
          exact List.count_eq_zero.1 (by simpa using this.symm)
        have hnc : '\n' ∉ c :: t := by simp [hn, Ne.symm h]
        rw [lastLine_of_not_mem hn] at ih
        rw [lastLine_of_not_mem hnc, ← ih]
        simp
      | cons next others =>
        have hm : '\n' ∈ t := by
          have := length_pieces '\n' t
          rw [ht] at this
          exact List.count_pos_iff.1 (by simp at this; omega)
        rw [lastLine, if_pos (List.mem_cons_of_mem c hm), ← ih]
        simp

/-- Where two texts meet, the last line of the one runs on as the first line of the other. -/
theorem lines_append (s t : Text) :
    (s ++ t).lines = s.lines.dropLast ++ (s.lastLine ++ t.firstLine) :: t.lines.tail := by
  rw [lines, pieces_append, ← lines, ← lines, getLastD_lines, headD_lines]

/-- A line feed at the end is followed by an empty last line. -/
theorem lines_append_break (s : Text) : lines (s ++ ['\n']) = s.lines ++ [[]] :=
  pieces_append_cons_sep '\n' s []

end Text

/-! ## Adding up places -/

namespace BytePosition

/-- The place that is reached from `p` by going on as far as `q` lies from the start. -/
def add (p q : BytePosition) : BytePosition :=
  ⟨p.line + q.line, if q.line = 0 then p.column + q.column else q.column⟩

instance : Add BytePosition := ⟨add⟩

attribute [grind =] le_def lt_def

@[simp, grind =] theorem line_add (p q : BytePosition) : (p + q).line = p.line + q.line := rfl

@[grind =] theorem column_add (p q : BytePosition) :
    (p + q).column = if q.line = 0 then p.column + q.column else q.column := rfl

@[ext] theorem ext_iff_line_column {p q : BytePosition} (hl : p.line = q.line)
    (hc : p.column = q.column) : p = q := by
  cases p; cases q; simp_all

@[simp] theorem add_origin (p : BytePosition) : p + origin = p := rfl

@[simp] theorem origin_add (p : BytePosition) : origin + p = p := by
  ext <;> simp [origin, column_add]

theorem add_assoc (p q r : BytePosition) : p + q + r = p + (q + r) := by
  ext
  · simp only [line_add]
    omega
  · grind

/-- Going on from a place leads to no earlier one. -/
theorem le_add (p q : BytePosition) : p ≤ p + q := by
  grind

theorem lt_add {q : BytePosition} (hq : q ≠ origin) (p : BytePosition) : p < p + q := by
  by_cases hl : q.line = 0
  · have hc : q.column ≠ 0 := fun hc => hq (by ext <;> simp [origin, hl, hc])
    grind
  · grind

theorem add_le_add_iff_left {p q r : BytePosition} : p + q ≤ p + r ↔ q ≤ r := by
  grind

theorem add_lt_add_iff_left {p q r : BytePosition} : p + q < p + r ↔ q < r := by
  grind

theorem le_refl (p : BytePosition) : p ≤ p := .inr ⟨rfl, Nat.le_refl _⟩

theorem le_trans {p q r : BytePosition} (h : p ≤ q) (h' : q ≤ r) : p ≤ r := by
  grind

theorem lt_of_le_of_lt {p q r : BytePosition} (h : p ≤ q) (h' : q < r) : p < r := by
  grind

theorem not_le {p q : BytePosition} : ¬ p ≤ q ↔ q < p := by
  grind

end BytePosition

namespace Text

/-! ## Extents -/

/-- The place at which a text ends: behind its last line feed, and as many bytes on as its last line
is long. -/
def extent (t : Text) : BytePosition := ⟨t.count '\n', t.lastLine.byteLength⟩

@[simp] theorem extent_nil : extent [] = .origin := rfl

theorem extent_of_not_mem {t : Text} (h : '\n' ∉ t) : t.extent = ⟨0, t.byteLength⟩ := by
  rw [extent, lastLine_of_not_mem h, List.count_eq_zero.2 h]

/-- Extents add up. -/
theorem extent_append (s t : Text) : (s ++ t).extent = s.extent + t.extent := by
  by_cases h : '\n' ∈ t
  · have hc : t.count '\n' ≠ 0 := mt List.count_eq_zero.1 (not_not.2 h)
    ext
    · simp [extent]
    · simp [extent, BytePosition.column_add, lastLine_append_of_mem h, hc]
  · have hc : t.count '\n' = 0 := List.count_eq_zero.2 h
    ext
    · simp [extent]
    · simp [extent, BytePosition.column_add, lastLine_append_of_not_mem h, hc,
        lastLine_of_not_mem h]

theorem byteLength_eq_zero_iff {t : Text} : t.byteLength = 0 ↔ t = [] := by
  cases t with
  | nil => simp
  | cons c t => have := Char.utf8Size_pos c; simp; omega

/-- Only the empty text ends where it starts. -/
theorem extent_eq_origin_iff {t : Text} : t.extent = .origin ↔ t = [] := by
  constructor
  · intro h
    have hl : '\n' ∉ t := List.count_eq_zero.1 (congrArg BytePosition.line h)
    rw [extent_of_not_mem hl] at h
    exact byteLength_eq_zero_iff.1 (congrArg BytePosition.column h)
  · rintro rfl; rfl

/-- A line feed in front moves a place one line down. -/
theorem extent_cons_break (t : Text) :
    extent ('\n' :: t) = ⟨t.extent.line + 1, t.extent.column⟩ := by
  ext <;> simp [extent, lastLine]

theorem extent_le_append (s t : Text) : s.extent ≤ (s ++ t).extent :=
  extent_append s t ▸ BytePosition.le_add _ _

theorem extent_lt_append {t : Text} (h : t ≠ []) (s : Text) : s.extent < (s ++ t).extent :=
  extent_append s t ▸ BytePosition.lt_add (mt extent_eq_origin_iff.1 h) _

theorem lineCount_eq_extent (t : Text) : t.lineCount = t.extent.line + 1 := lineCount_eq t

/-- Of two beginnings of a text, the one that ends no later is a beginning of the other. -/
theorem prefix_of_extent_le {s s' t : Text} (hs : s <+: t) (hs' : s' <+: t)
    (h : s.extent ≤ s'.extent) : s <+: s' := by
  rcases List.prefix_or_prefix_of_prefix hs hs' with hp | ⟨m, rfl⟩
  · exact hp
  · by_cases hm : m = []
    · simp [hm]
    · exact absurd h (BytePosition.not_le.2 (extent_lt_append hm s'))

/-! ## Cutting at a place -/

theorem splitAtLine?_append {s : Text} (h : s.lastLine = []) (x : Text) :
    splitAtLine? (s.count '\n') (s ++ x) = some (s, x) := by
  induction s with
  | nil => cases x <;> rfl
  | cons c s ih =>
    have hm : '\n' ∈ c :: s := by
      by_contra hm
      rw [lastLine_of_not_mem hm] at h
      simp at h
    rw [lastLine, if_pos hm] at h
    obtain ⟨n, hn⟩ := Nat.exists_eq_succ_of_ne_zero (List.count_pos_iff.2 hm).ne'
    have hrest : (if c = '\n' then n else n + 1) = s.count '\n' := by
      rw [List.count_cons] at hn
      by_cases hc : c = '\n' <;> simp [hc] at hn ⊢ <;> omega
    rw [hn, List.cons_append, Nat.succ_eq_add_one, splitAtLine?, hrest, ih h]
    rfl

theorem splitAtColumn?_append {s : Text} (h : '\n' ∉ s) (x : Text) :
    splitAtColumn? s.byteLength (s ++ x) = some (s, x) := by
  induction s with
  | nil => cases x <;> rfl
  | cons c s ih =>
    obtain ⟨hc, hs⟩ := List.ne_and_not_mem_of_not_mem_cons h
    obtain ⟨n, hn⟩ := Nat.exists_eq_succ_of_ne_zero (Char.utf8Size_pos c).ne'
    have hsize : byteLength (c :: s) = (n + byteLength s) + 1 := by simp [hn]; omega
    have hrest : n + byteLength s + 1 - c.utf8Size = byteLength s := by omega
    rw [hsize, List.cons_append, splitAtColumn?, if_neg (by simp [Ne.symm hc]; omega), hrest, ih hs]
    rfl

theorem of_splitAtLine? {n : Nat} {t s x : Text} (h : splitAtLine? n t = some (s, x)) :
    s.lastLine = [] ∧ s.count '\n' = n := by
  induction t generalizing n s with
  | nil => cases n <;> simp_all [splitAtLine?, lastLine]
  | cons c t ih =>
    cases n with
    | zero => simp_all [splitAtLine?, lastLine]
    | succ n =>
      rw [splitAtLine?] at h
      obtain ⟨⟨b, a⟩, hs, heq⟩ := Option.map_eq_some_iff.1 h
      obtain ⟨rfl, rfl⟩ := Prod.mk.inj heq
      obtain ⟨hlast, hcount⟩ := ih hs
      by_cases hc : c = '\n'
      · subst hc
        exact ⟨by simp [lastLine, hlast], by simpa using hcount⟩
      · rw [if_neg hc] at hcount
        have hm : '\n' ∈ b := List.count_pos_iff.1 (by omega)
        exact ⟨by simp [lastLine, hm, hlast], by simpa [hc] using hcount⟩

theorem of_splitAtColumn? {n : Nat} {t s x : Text} (h : splitAtColumn? n t = some (s, x)) :
    '\n' ∉ s ∧ s.byteLength = n := by
  induction t generalizing n s with
  | nil => cases n <;> simp_all [splitAtColumn?]
  | cons c t ih =>
    cases n with
    | zero => simp_all [splitAtColumn?]
    | succ n =>
      rw [splitAtColumn?] at h
      split at h
      · simp at h
      · rename_i hc
        obtain ⟨⟨b, a⟩, hs, heq⟩ := Option.map_eq_some_iff.1 h
        obtain ⟨rfl, rfl⟩ := Prod.mk.inj heq
        obtain ⟨hmem, hlen⟩ := ih hs
        simp only [not_or, Nat.not_lt] at hc
        exact ⟨by simp [hmem, Ne.symm hc.1], by simp [hlen]; omega⟩

/-- A text can be cut at a place exactly if a beginning of it ends there. -/
theorem splitAt?_eq_some_iff {p : BytePosition} {t s x : Text} :
    splitAt? p t = some (s, x) ↔ s ++ x = t ∧ s.extent = p := by
  constructor
  · intro h
    refine ⟨append_of_splitAt? h, ?_⟩
    simp only [splitAt?, Option.bind_eq_bind, Option.bind_eq_some_iff, Option.pure_def,
      Option.some.injEq, Prod.mk.injEq] at h
    obtain ⟨⟨l, rest⟩, hl, ⟨b, a⟩, hc, rfl, rfl⟩ := h
    obtain ⟨hlast, hcount⟩ := of_splitAtLine? hl
    obtain ⟨hmem, hlen⟩ := of_splitAtColumn? hc
    ext
    · simp [extent, hcount, List.count_eq_zero.2 hmem]
    · simp [extent, lastLine_append_of_not_mem hmem, hlast, hlen]
  · rintro ⟨rfl, rfl⟩
    obtain ⟨b, hb, hlast, hcount⟩ := exists_append_lastLine s
    have hline : splitAtLine? s.extent.line (s ++ x) = some (b, s.lastLine ++ x) := by
      have := splitAtLine?_append hlast (s.lastLine ++ x)
      rwa [hcount, ← List.append_assoc, ← hb] at this
    have hcolumn : splitAtColumn? s.extent.column (s.lastLine ++ x) = some (s.lastLine, x) :=
      splitAtColumn?_append (not_mem_lastLine s) x
    simp [splitAt?, hline, hcolumn, ← hb]

theorem splitAt?_append (s x : Text) : splitAt? s.extent (s ++ x) = some (s, x) :=
  splitAt?_eq_some_iff.2 ⟨rfl, rfl⟩

/-- Replacing a range succeeds exactly if the text has beginnings that end at its two ends, and
puts the new text in place of what lies between. -/
theorem replace?_eq_some_iff {r : ByteRange} {new t t' : Text} :
    replace? r new t = some t' ↔
      ∃ s m x, t = s ++ m ++ x ∧ r = ⟨s.extent, (s ++ m).extent⟩ ∧ t' = s ++ new ++ x := by
  constructor
  · intro h
    simp only [replace?, Option.bind_eq_bind, Option.bind_eq_some_iff, Option.pure_def] at h
    obtain ⟨⟨s, y⟩, hs, ⟨s', x⟩, hs', h⟩ := h
    obtain ⟨hsy, hstart⟩ := splitAt?_eq_some_iff.1 hs
    obtain ⟨hsx, hstop⟩ := splitAt?_eq_some_iff.1 hs'
    split at h
    · simp at h
    · rename_i hle
      rw [BytePosition.not_lt, ← hstart, ← hstop] at hle
      obtain ⟨m, rfl⟩ := prefix_of_extent_le ⟨y, hsy⟩ ⟨x, hsx⟩ hle
      exact ⟨s, m, x, hsx.symm, by rw [hstart, hstop], (Option.some.inj h).symm⟩
  · rintro ⟨s, m, x, rfl, rfl, rfl⟩
    have hs : splitAt? s.extent (s ++ m ++ x) = some (s, m ++ x) :=
      splitAt?_eq_some_iff.2 ⟨(List.append_assoc ..).symm, rfl⟩
    have hle : ¬ (s ++ m).extent < s.extent := BytePosition.not_lt.2 (extent_le_append s m)
    simp only [replace?, hs, splitAt?_append, Option.bind_eq_bind, Option.bind_some, if_neg hle]
    rfl

/-! ## Lines at a place -/

/-- The line on which a text is cut: the last of the first part, run on into the second. -/
theorem line?_append (s x : Text) :
    (s ++ x).line? s.extent.line = some (s.lastLine ++ x.firstLine) := by
  have hlen : s.lines.dropLast.length = s.extent.line := by
    rw [List.length_dropLast, ← lineCount, lineCount_eq_extent]; rfl
  rw [line?, lines_append, ← hlen]
  simp

/-- Every line of a text stands between two of its line feeds. -/
theorem exists_of_line? {t l : Text} {n : Nat} (h : t.line? n = some l) :
    ∃ s x, t = s ++ l ++ x ∧ s.extent = ⟨n, 0⟩ ∧ '\n' ∉ l ∧ (x = [] ∨ x.head? = some '\n') := by
  induction t generalizing n l with
  | nil =>
    cases n with
    | zero => exact ⟨[], [], by simpa [line?, lines] using h.symm, rfl, by simp_all [line?, lines]⟩
    | succ n => simp [line?, lines] at h
  | cons c t ih =>
    by_cases hc : c = '\n'
    · subst hc
      rw [line?, lines, pieces_cons_sep] at h
      cases n with
      | zero => exact ⟨[], '\n' :: t, by simp_all, rfl, by simp_all, .inr rfl⟩
      | succ n =>
        obtain ⟨s, x, rfl, hs, hl, hx⟩ := ih h
        refine ⟨'\n' :: s, x, rfl, ?_, hl, hx⟩
        rw [extent_cons_break, hs]
    · obtain ⟨first, others, ht, hct⟩ := pieces_cons_of_ne hc t
      rw [line?, lines, hct] at h
      cases n with
      | zero =>
        obtain rfl : c :: first = l := by simpa using h
        obtain ⟨s, x, hst, hs, hl, hx⟩ := ih (n := 0) (l := first) (by simp [line?, lines, ht])
        obtain rfl : s = [] := extent_eq_origin_iff.1 hs
        exact ⟨[], x, by simp [hst], rfl, by simp [hl, Ne.symm hc], hx⟩
      | succ n =>
        obtain ⟨s, x, rfl, hs, hl, hx⟩ := ih (n := n + 1) (l := l) (by simpa [line?, lines, ht] using h)
        refine ⟨c :: s, x, rfl, ?_, hl, hx⟩
        rw [← List.singleton_append, extent_append, hs]
        ext <;> simp [extent_of_not_mem (t := [c]) (by simp [Ne.symm hc]), BytePosition.column_add]

end Text

end WorkspaceEditing
