import WorkspaceEditing.Proofs.Text.Extent

/-!
# Line breaks of every kind

A text from outside breaks its lines by a carriage return and a line feed together, or by either of
them alone. Read from left to right, it is cut at these breaks in one way only: a carriage return
takes a line feed right behind it along, and nothing else joins two characters to one break. To bring
all breaks to line feeds and cut at the line feeds gives these same segments.

## Main definitions

* `LineBreak` — the three kinds of line break.
* `Text.CutAtBreaks` — a text cut into segments at its line breaks, from left to right.
* `Text.lineBreaks` — the line breaks of a text.

## Main results

* `Text.cutAtBreaks_iff` — the cut exists and is the only one.
* `Text.lines_normalizeLineBreaks` — the lines of a text with its line breaks in one form.
-/

namespace WorkspaceEditing

/-- A kind of line break. -/
inductive LineBreak where
  | crlf
  | cr
  | lf
deriving DecidableEq, Repr

namespace LineBreak

/-- A line break as it is written. -/
def text : LineBreak → Text
  | crlf => ['\r', '\n']
  | cr => ['\r']
  | lf => ['\n']

/-- The break is not the first part of a longer one with what follows it. -/
def IsWhole (b : LineBreak) (rest : Text) : Prop := b = cr → rest.head? ≠ some '\n'

end LineBreak

namespace Text

variable {s t rest : Text} {segments : List Text} {b : LineBreak} {breaks : List LineBreak}
  {c : Char}

/-! ## The cut -/

/-- A text without line breaks of any kind. -/
def IsSegment (s : Text) : Prop := '\r' ∉ s ∧ '\n' ∉ s

/-- A text is cut, from left to right, into segments and the line breaks between them. Each break is
taken as long as it can be before the rest is cut. -/
inductive CutAtBreaks : Text → List Text → List LineBreak → Prop
  | last {s : Text} (hs : s.IsSegment) : CutAtBreaks s [s] []
  | next {s rest : Text} {segments : List Text} {b : LineBreak} {breaks : List LineBreak}
      (hs : s.IsSegment) (hb : b.IsWhole rest) (hrest : CutAtBreaks rest segments breaks) :
      CutAtBreaks (s ++ (b.text ++ rest)) (s :: segments) (b :: breaks)

/-- The line breaks of a text, in their order. -/
def lineBreaks : Text → List LineBreak
  | [] => []
  | '\r' :: '\n' :: rest => .crlf :: lineBreaks rest
  | '\r' :: rest => .cr :: lineBreaks rest
  | '\n' :: rest => .lf :: lineBreaks rest
  | _ :: rest => lineBreaks rest

theorem isSegment_nil : IsSegment [] := ⟨List.not_mem_nil, List.not_mem_nil⟩

theorem isSegment_cons_iff : IsSegment (c :: s) ↔ (c ≠ '\r' ∧ c ≠ '\n') ∧ s.IsSegment := by
  simp only [IsSegment, List.mem_cons, not_or, ne_comm (a := c)]
  tauto

theorem lineBreaks_cons_of_ne (hcr : c ≠ '\r') (hlf : c ≠ '\n') (t : Text) :
    lineBreaks (c :: t) = t.lineBreaks := by
  simp [lineBreaks, hcr]

/-! ## One segment and one break -/

theorem unifyLineBreaks_append (hs : s.IsSegment) (t : Text) :
    (s ++ t).unifyLineBreaks = s ++ t.unifyLineBreaks := by
  induction s with
  | nil => rfl
  | cons c s ih =>
    obtain ⟨⟨hcr, -⟩, hs⟩ := isSegment_cons_iff.1 hs
    rw [List.cons_append, unifyLineBreaks_cons_of_ne hcr, ih hs, List.cons_append]

theorem lineBreaks_append (hs : s.IsSegment) (t : Text) :
    (s ++ t).lineBreaks = t.lineBreaks := by
  induction s with
  | nil => rfl
  | cons c s ih =>
    obtain ⟨⟨hcr, hlf⟩, hs⟩ := isSegment_cons_iff.1 hs
    rw [List.cons_append, lineBreaks_cons_of_ne hcr hlf, ih hs]

/-- Whatever follows a whole break, the break is read on its own. -/
theorem read_break (h : b.IsWhole rest) :
    (b.text ++ rest).unifyLineBreaks = '\n' :: rest.unifyLineBreaks ∧
      (b.text ++ rest).lineBreaks = b :: rest.lineBreaks := by
  cases b with
  | crlf => exact ⟨rfl, rfl⟩
  | lf => exact ⟨rfl, rfl⟩
  | cr =>
    have hhead := h rfl
    cases rest with
    | nil => exact ⟨rfl, rfl⟩
    | cons c rest =>
      have hc : c ≠ '\n' := by simpa using hhead
      constructor
      · simp [LineBreak.text, unifyLineBreaks, hc]
      · simp [LineBreak.text, lineBreaks, hc]

/-! ## The cut is the only one -/

/-- Every text can be cut at its line breaks. -/
theorem exists_cutAtBreaks (t : Text) : ∃ segments breaks, t.CutAtBreaks segments breaks := by
  fun_induction lineBreaks t with
  | case1 => exact ⟨_, _, .last isSegment_nil⟩
  | case2 rest ih =>
    obtain ⟨segments, breaks, hrest⟩ := ih
    exact ⟨_, _, .next (b := .crlf) isSegment_nil nofun hrest⟩
  | case3 rest hlf ih =>
    obtain ⟨segments, breaks, hrest⟩ := ih
    have hwhole : LineBreak.cr.IsWhole rest := by
      intro _ hhead
      obtain ⟨rest', hrest'⟩ := List.head?_eq_some_iff.1 hhead
      exact hlf rest' hrest'
    exact ⟨_, _, .next isSegment_nil hwhole hrest⟩
  | case4 rest ih =>
    obtain ⟨segments, breaks, hrest⟩ := ih
    exact ⟨_, _, .next (b := .lf) isSegment_nil nofun hrest⟩
  | case5 c rest _ hcr hlf ih =>
    -- the character joins the first segment, whether or not that is the last
    obtain ⟨segments, breaks, hrest⟩ := ih
    cases hrest with
    | last hs => exact ⟨_, _, .last (isSegment_cons_iff.2 ⟨⟨hcr, hlf⟩, hs⟩)⟩
    | next hs hb hrest => exact ⟨_, _, .next (isSegment_cons_iff.2 ⟨⟨hcr, hlf⟩, hs⟩) hb hrest⟩

namespace CutAtBreaks

theorem isSegment_of_mem (h : t.CutAtBreaks segments breaks) (hs : s ∈ segments) :
    s.IsSegment := by
  induction h with
  | last hlast =>
    obtain rfl := List.mem_singleton.1 hs
    exact hlast
  | next hfirst _ _ ih =>
    rcases List.mem_cons.1 hs with rfl | hmem
    · exact hfirst
    · exact ih hmem

theorem length_segments (h : t.CutAtBreaks segments breaks) :
    segments.length = breaks.length + 1 := by
  induction h with
  | last => rfl
  | next _ _ _ ih => rw [List.length_cons, List.length_cons, ih]

/-- The segments of a cut are the lines of the text with its breaks in one form. -/
theorem segments_eq (h : t.CutAtBreaks segments breaks) : segments = t.unifyLineBreaks.lines := by
  induction h with
  | last hs => rw [unifyLineBreaks_of_not_mem hs.1, lines, pieces_of_not_mem hs.2]
  | @next s rest segments b breaks hs hb _ ih =>
    calc s :: segments
      _ = lines s ++ lines rest.unifyLineBreaks := by
        rw [lines, pieces_of_not_mem hs.2, ← ih, List.singleton_append]
      _ = lines (s ++ '\n' :: rest.unifyLineBreaks) := (pieces_append_cons_sep '\n' s _).symm
      _ = (s ++ (b.text ++ rest)).unifyLineBreaks.lines := by
        rw [unifyLineBreaks_append hs, (read_break hb).1]

theorem breaks_eq (h : t.CutAtBreaks segments breaks) : breaks = t.lineBreaks := by
  induction h with
  | @last s hs =>
    have happend := lineBreaks_append hs []
    rw [List.append_nil] at happend
    rw [happend, lineBreaks]
  | next hs hb _ ih => rw [lineBreaks_append hs, (read_break hb).2, ← ih]

/-- A text that has been cut has no carriage return left once its breaks are in one form. -/
theorem not_mem_unifyLineBreaks (h : t.CutAtBreaks segments breaks) :
    '\r' ∉ t.unifyLineBreaks := by
  induction h with
  | last hs =>
    rw [unifyLineBreaks_of_not_mem hs.1]
    exact hs.1
  | next hs hb _ ih =>
    rw [unifyLineBreaks_append hs, (read_break hb).1]
    simp [hs.1, ih]

end CutAtBreaks

/-- A text is cut at its line breaks in exactly one way. -/
theorem cutAtBreaks_iff :
    t.CutAtBreaks segments breaks ↔
      segments = t.normalizeLineBreaks.lines ∧ breaks = t.lineBreaks := by
  rw [normalizeLineBreaks_eq]
  constructor
  · intro h
    exact ⟨h.segments_eq, h.breaks_eq⟩
  · rintro ⟨rfl, rfl⟩
    obtain ⟨segments, breaks, h⟩ := exists_cutAtBreaks t
    rwa [← h.segments_eq, ← h.breaks_eq]

/-- For every text, its lines once all line breaks are line feeds are the segments that it is cut
into at its line breaks from left to right, and there is no other such cut. No line has a carriage
return or a line feed in it, there is one line more than there are line breaks, and the lines with
line feeds between them are the text with its breaks in one form. To bring them to one form again
changes nothing; and a text that is handed back as it is, having no carriage return, is what copying
it would have given. -/
theorem lines_normalizeLineBreaks (t : Text) :
    (∀ segments breaks, t.CutAtBreaks segments breaks ↔
        segments = t.normalizeLineBreaks.lines ∧ breaks = t.lineBreaks) ∧
      (∀ line ∈ t.normalizeLineBreaks.lines, '\r' ∉ line ∧ '\n' ∉ line) ∧
      t.normalizeLineBreaks.lines.length = t.lineBreaks.length + 1 ∧
      ofLines t.normalizeLineBreaks.lines = t.normalizeLineBreaks ∧
      t.normalizeLineBreaks.normalizeLineBreaks = t.normalizeLineBreaks ∧
      t.normalizeLineBreaks = t.unifyLineBreaks ∧
      ('\r' ∉ t → t.normalizeLineBreaks = t ∧ t.unifyLineBreaks = t) := by
  have hcut : t.CutAtBreaks t.normalizeLineBreaks.lines t.lineBreaks :=
    cutAtBreaks_iff.2 ⟨rfl, rfl⟩
  refine ⟨fun _ _ => cutAtBreaks_iff, fun _ => hcut.isSegment_of_mem, hcut.length_segments,
    ofLines_lines _, ?_, normalizeLineBreaks_eq t, ?_⟩
  · rw [normalizeLineBreaks_eq t, normalizeLineBreaks_eq,
      unifyLineBreaks_of_not_mem hcut.not_mem_unifyLineBreaks]
  · intro hclean
    rw [normalizeLineBreaks_eq]
    exact ⟨unifyLineBreaks_of_not_mem hclean, unifyLineBreaks_of_not_mem hclean⟩

/-- Of two carriage returns and a line feed, the second one takes the line feed along, and the
carriage return at the end opens an empty line; the text that comes of it is left as it is. -/
theorem lines_normalizeLineBreaks_runs :
    let t : Text := ['a', '\r', '\r', '\n', 'b', '\r']
    let unified : Text := ['a', '\n', '\n', 'b', '\n']
    t.CutAtBreaks [['a'], [], ['b'], []] [.cr, .crlf, .cr] ∧
      ¬ t.CutAtBreaks [['a'], [], [], ['b'], []] [.cr, .cr, .lf, .cr] ∧
      (['b'] ∈ t.normalizeLineBreaks.lines ∧ '\r' ∉ ['b'] ∧ '\n' ∉ ['b']) ∧
      '\r' ∉ unified ∧ unified.normalizeLineBreaks = unified ∧ unified.unifyLineBreaks = unified := by
  intro t unified
  obtain ⟨hcut, hlines, -⟩ := lines_normalizeLineBreaks t
  obtain ⟨-, -, -, -, -, -, hclean⟩ := lines_normalizeLineBreaks unified
  have hmem : ['b'] ∈ t.normalizeLineBreaks.lines := by decide
  refine ⟨(hcut _ _).2 (by decide), ?_, ⟨hmem, hlines _ hmem⟩, by decide, hclean (by decide)⟩
  rw [hcut]
  decide

end Text

end WorkspaceEditing
