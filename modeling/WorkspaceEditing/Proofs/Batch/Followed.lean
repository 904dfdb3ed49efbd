import WorkspaceEditing.Proofs.Batch.Cursor
import WorkspaceEditing.Proofs.Batch.Marks

/-!
# A mark stays with its line

The editor moves a mark by counting lines, replacement by replacement. In a valid batch that leaves
the line of a mark alone, every edit lies behind that line or in front of it. Those behind it are
applied first and leave the mark where it is; those in front of it move the mark by as many lines as
they move the line. So the mark goes through all of them and is on its line in the end, and there it
stays if an empty last line is taken away.

## Main definitions

* `Protocol.TextEdit.TouchesLine` — the lines that an edit has a part in.
* `Text.LineAt` — a line of a text, with what stands in front of it and behind it.

## Main results

* `Text.LineAt.exists_followed` — the line after the edits, and the mark on it.
* `Text.LineAt.followed_finalBreak` — the removal of an empty last line leaves the mark alone.
* `Buffer.exists_followed` — where a batch takes a mark whose line it leaves alone.
-/

namespace WorkspaceEditing

open Protocol

/-- The edit, its range in order, starts on a line or in front of it, and ends there or behind it. -/
def Protocol.TextEdit.TouchesLine (edit : TextEdit) (line : Nat) : Prop :=
  edit.normalized.range.start.line ≤ line ∧ line ≤ edit.normalized.range.stop.line

instance (edit : TextEdit) (line : Nat) : Decidable (edit.TouchesLine line) :=
  inferInstanceAs (Decidable (_ ∧ _))

/-- A mark behind a replaced range moves by as many lines as what stands there. -/
theorem Mark.followed_append {m : Mark} {d : Nat} {s mid x : Text} (hd : 0 < d)
    (hx : d ≤ x.extent.line) (hm : m.position.line = (s ++ mid).extent.line + d) (new : Text) :
    m.followed ⟨s.extent, (s ++ mid).extent⟩ (max new.lines.length 1)
        (s ++ (new ++ x)).lineCount =
      some ⟨m.name, ⟨(s ++ new).extent.line + d, m.position.column⟩⟩ := by
  have hlength : new.lines.length = new.extent.line + 1 := Text.lineCount_eq_extent new
  have hbehind : m.position.line > (s ++ mid).extent.line := by omega
  have hmoved : m.position.line + max new.lines.length 1 - (mid.extent.line + 1) =
      (s ++ new).extent.line + d := by
    rw [hm, hlength]
    simp only [Text.extent_append, BytePosition.line_add]
    omega
  have hlt : (s ++ new).extent.line + d < (s ++ (new ++ x)).lineCount := by
    rw [Text.lineCount_eq_extent]
    simp only [Text.extent_append, BytePosition.line_add]
    omega
  unfold followed
  dsimp only
  rw [if_pos hbehind, BytePosition.lineSpan_append, hmoved, if_pos hlt]

namespace Text

variable {e : Encoding} {t s line x : Text} {edit : TextEdit} {edits rest : List TextEdit}
  {m : Mark}

/-! ## A line of a text -/

/-- A text is a line with what stands in front of it and what stands behind it. -/
structure LineAt (t s line x : Text) : Prop where
  text_eq : t = s ++ (line ++ x)
  opens : s.lastLine = []
  unbroken : '\n' ∉ line
  closes : x = [] ∨ x.head? = some '\n'

theorem exists_lineAt {n : Nat} (h : t.line? n = some line) :
    ∃ s x, t.LineAt s line x ∧ s.extent.line = n := by
  obtain ⟨s, x, rfl, hs, hline, hx⟩ := exists_of_line? h
  have hlast : s.lastLine = [] := byteLength_eq_zero_iff.1 (congrArg BytePosition.column hs)
  exact ⟨s, x, ⟨List.append_assoc .., hlast, hline, hx⟩, congrArg BytePosition.line hs⟩

namespace LineAt

theorem line?_eq (h : t.LineAt s line x) : t.line? s.extent.line = some line := by
  rw [h.text_eq, line?_append, h.opens, firstLine_append_of_not_mem h.unbroken,
    firstLine_eq_nil_iff.2 h.closes, List.append_nil, List.nil_append]

/-- If the line is the last one and empty, the text is empty or ends in a line feed. -/
theorem endsInBreak_iff (h : t.LineAt s line []) : t.endsInBreak = true ↔ line = [] ∧ s ≠ [] := by
  have ht : t = s ++ line := by rw [h.text_eq, List.append_nil]
  constructor
  · intro hends
    have hlast : t.getLast? = some '\n' := of_decide_eq_true hends
    by_cases hline : line = []
    · refine ⟨hline, ?_⟩
      rintro rfl
      simp [ht, hline] at hlast
    · rw [ht, List.getLast?_append_of_ne_nil s hline] at hlast
      exact absurd (List.mem_of_getLast? hlast) h.unbroken
  · rintro ⟨rfl, hs⟩
    rw [ht, List.append_nil]
    exact (eq_nil_or_endsInBreak h.opens).resolve_left hs

/-- The line is still there if the last character behind it is taken away. -/
theorem dropLast (h : t.LineAt s line x) (hx : x ≠ []) : LineAt t.dropLast s line x.dropLast where
  text_eq := by
    rw [h.text_eq, List.dropLast_append_of_ne_nil (List.append_ne_nil_of_right_ne_nil line hx),
      List.dropLast_append_of_ne_nil hx]
  opens := h.opens
  unbroken := h.unbroken
  closes := by
    obtain ⟨c, y, rfl⟩ := List.exists_cons_of_ne_nil hx
    cases y with
    | nil => exact .inl rfl
    | cons d y => exact .inr (h.closes.resolve_left hx)

/-- The removal of an empty last line leaves a mark on another line alone. -/
theorem followed_finalBreak (h : t.LineAt s line x) (hx : x ≠ []) (hends : t.endsInBreak = true)
    (hm : m.position.line = s.extent.line) :
    m.followed t.finalBreak.range (max t.finalBreak.newLines.length 1)
      (t.amended t.finalBreak).lineCount = some m := by
  obtain ⟨u, rfl⟩ := List.getLast?_eq_some_iff.1 (of_decide_eq_true hends)
  have hu : u = s ++ (line ++ x.dropLast) := by
    have := (h.dropLast hx).text_eq
    rwa [List.dropLast_concat] at this
  have hle : m.position.line ≤ (extent u).line := by
    rw [hm, hu, extent_append, BytePosition.line_add]
    omega
  rw [range_finalBreak, amended_finalBreak hends, List.dropLast_concat, lineCount_eq_extent]
  exact Mark.followed_of_le hle (extent_le_append u _) (by omega)

end LineAt

/-! ## Edits behind the line -/

/-- Edits that start behind a mark leave it alone. -/
theorem through?_of_startsFrom (h : Descends e t edits)
    (hs : ∀ y ∈ edits, s <+: t.upTo e y.range.start ∧ m.position.line ≤ y.range.start.line)
    (hm : m.position.line ≤ s.extent.line) (out : Text) :
    m.through? (t.upTo e (nextStop edits) ++ out)
      (replacements e (t.upTo e (nextStop edits) ++ out) edits) = some m := by
  induction edits generalizing out with
  | nil => rfl
  | cons edit rest ih =>
    obtain ⟨hinitial, hle⟩ := hs edit List.mem_cons_self
    have hbefore := upTo_gap h
    have hrange := upTo_range h
    have hstart := line_upTo h.start
    have hstay (newLines : Nat) : m.followed
        ⟨(t.upTo e edit.range.start).extent, (t.upTo e edit.range.stop).extent⟩ newLines
        (t.upTo e (nextStop rest) ++ (between e t (nextStop rest) edit.range.start ++
          (inserted edit.newText out ++ out))).lineCount = some m := by
      apply Mark.followed_of_le
      · exact hstart.symm ▸ hle
      · rw [← hrange]
        exact extent_le_append _ _
      · obtain ⟨y, hy⟩ := hinitial
        rw [← List.append_assoc, hbefore, ← hy, lineCount_eq_extent, List.append_assoc,
          extent_append, BytePosition.line_add]
        omega
    rw [replacements, Mark.through?, nextStop, amended_upTo h, replacementIn_upTo h, hstay]
    exact ih h.tail (fun y hy => hs y (List.mem_cons_of_mem _ hy)) _

/-- Edits behind a line leave it alone, and a mark on it. -/
theorem LineAt.exists_of_behind (hline : t.LineAt s line x) (h : Descends e t edits)
    (hm : m.position.line = s.extent.line)
    (hbehind : ∀ y ∈ edits, s.extent.line < y.range.start.line) :
    ∃ x', (t.edited e edits).LineAt s line x' ∧ (x' = [] → x = []) ∧
      m.through? t (t.replacements e edits) = some m := by
  have hafter := upTo_append_after e t (nextStop edits)
  rcases hline.closes with rfl | hx
  · -- behind the last line there is no place for an edit
    have hnone : edits = [] := by
      apply List.eq_nil_iff_forall_not_mem.2
      intro y hy
      obtain ⟨u, hu⟩ := upTo_isPrefix e t y.range.start
      have hplace := line_upTo (h.exact y hy).1
      have hlast : t.extent.line = s.extent.line := by
        rw [hline.text_eq, List.append_nil, extent_append, extent_of_not_mem hline.unbroken]
        rfl
      have := hbehind y hy
      rw [← hu, extent_append, BytePosition.line_add] at hlast
      omega
    subst hnone
    exact ⟨[], hline, fun _ => rfl, rfl⟩
  · obtain ⟨y, rfl⟩ := List.head?_eq_some_iff.1 hx
    -- what stands in front of the edits goes on as far as the end of the line
    have hinitial : s ++ (line ++ ['\n']) <+: t := ⟨y, by simp [hline.text_eq]⟩
    have hextent : (s ++ (line ++ ['\n'])).extent = ⟨s.extent.line + 1, 0⟩ := by
      rw [extent_append, extent_append, extent_of_not_mem hline.unbroken]
      rfl
    have hs : ∀ y ∈ edits, s ++ (line ++ ['\n']) <+: t.upTo e y.range.start ∧
        (s ++ (line ++ ['\n'])).extent ≤ (t.upTo e y.range.start).extent := by
      intro y hy
      have hle : (s ++ (line ++ ['\n'])).extent ≤ (t.upTo e y.range.start).extent := by
        have hplace := line_upTo (h.exact y hy).1
        have := hbehind y hy
        rw [hextent, BytePosition.le_def]
        dsimp only
        omega
      exact ⟨prefix_of_extent_le hinitial (upTo_isPrefix e t _) hle, hle⟩
    rw [← hafter] at hinitial
    obtain ⟨⟨out, hout⟩, -⟩ := edited_of_startsFrom h hs hinitial
    have hthrough := through?_of_startsFrom h (m := m)
      (fun y hy => ⟨(hs y hy).1, (hm ▸ hbehind y hy).le⟩)
      (by rw [hextent, hm]; exact Nat.le_succ _) (after e t (nextStop edits))
    rw [hafter] at hout hthrough
    refine ⟨'\n' :: out, ⟨?_, hline.opens, hline.unbroken, .inr rfl⟩, nofun, hthrough⟩
    rw [← hout]
    simp

/-! ## Edits in front of the line -/

/-- Edits in front of a mark put some text in front of what stands behind them, and move the mark by
as many lines. -/
theorem exists_prepended_through? (h : Descends e t edits) {d : Nat} (hd : edits = [] ∨ 0 < d)
    {out : Text} (hout : d ≤ out.extent.line)
    (hm : m.position.line = (t.upTo e (nextStop edits)).extent.line + d) :
    ∃ p, prepended e t edits out = p ++ out ∧
      m.through? (t.upTo e (nextStop edits) ++ out)
        (replacements e (t.upTo e (nextStop edits) ++ out) edits) =
      some ⟨m.name, ⟨p.extent.line + d, m.position.column⟩⟩ := by
  induction edits generalizing m d out with
  | nil =>
    rw [nextStop, upTo_start] at hm
    exact ⟨[], rfl, by rw [← hm]; rfl⟩
  | cons edit rest ih =>
    have hpos : 0 < d := hd.resolve_left (List.cons_ne_nil _ _)
    have hbefore := upTo_gap h
    have hrange := upTo_range h
    -- what comes to stand in front of the text behind the edit, down to the end of the next one
    let new := inserted edit.newText out
    let gap := between e t (nextStop rest) edit.range.start
    have hamended : t.upTo e edit.range.start ++ (new ++ out) =
        t.upTo e (nextStop rest) ++ (gap ++ (new ++ out)) := by
      rw [← hbefore, List.append_assoc]
    have hlines : (t.upTo e edit.range.start ++ new).extent.line =
        (t.upTo e (nextStop rest)).extent.line + (gap ++ new).extent.line := by
      rw [← hbefore, List.append_assoc, extent_append, BytePosition.line_add]
    rw [nextStop, ← hrange] at hm
    have hmoved := Mark.followed_append hpos hout hm new
    rw [hrange, hamended, hlines, Nat.add_assoc] at hmoved
    have hreach : (gap ++ new).extent.line + d ≤ (gap ++ (new ++ out)).extent.line := by
      simp only [extent_append, BytePosition.line_add]
      omega
    obtain ⟨p, hp, hthrough⟩ := ih h.tail (m := ⟨m.name, ⟨_, m.position.column⟩⟩)
      (.inr (Nat.add_pos_right _ hpos)) hreach rfl
    refine ⟨p ++ (gap ++ new), ?_, ?_⟩
    · rw [prepended, hp]
      simp only [List.append_assoc, gap, new]
    · rw [replacements, Mark.through?, nextStop, amended_upTo h, replacementIn_upTo h, hmoved,
        extent_append p, BytePosition.line_add, Nat.add_assoc]
      exact hthrough

/-- Edits in front of a line make something else of what stands there, and a mark on the line moves
along. -/
theorem exists_of_inFront (h : Descends e t edits) (hs : s <+: t) (hopens : s.lastLine = [])
    (hm : m.position.line = s.extent.line)
    (hbefore : ∀ y ∈ edits, y.range.stop.line < s.extent.line) (z : Text) :
    ∃ s', edited e (s ++ z) edits = s' ++ z ∧ s'.lastLine = [] ∧ (s = [] → s' = []) ∧
      m.through? (s ++ z) (replacements e (s ++ z) edits) =
        some ⟨m.name, ⟨s'.extent.line, m.position.column⟩⟩ := by
  cases edits with
  | nil => exact ⟨s, rfl, hopens, id, by rw [← hm]; rfl⟩
  | cons edit rest =>
    have hlt := hbefore edit List.mem_cons_self
    rw [← line_upTo h.stop] at hlt
    obtain ⟨g, rfl⟩ := prefix_of_extent_le (upTo_isPrefix e t edit.range.stop) hs (.inl hlt)
    rw [extent_append, BytePosition.line_add] at hlt hm
    -- there is a line feed between the edit and the line
    have hbreak : '\n' ∈ g := List.count_pos_iff.1 (show 0 < (extent g).line by omega)
    have hreach : (extent g).line ≤ (extent (g ++ z)).line := by
      rw [extent_append, BytePosition.line_add]
      omega
    obtain ⟨p, hp, hthrough⟩ := exists_prepended_through? h (.inr (by omega)) hreach hm
    rw [nextStop] at hthrough
    refine ⟨p ++ g, ?_, ?_, ?_, ?_⟩
    · rw [List.append_assoc, List.append_assoc, ← hp]
      exact edited_eq_prepended h (g ++ z)
    · rw [lastLine_append_of_mem hbreak] at hopens ⊢
      exact hopens
    · intro hnil
      rw [(List.append_eq_nil_iff.1 hnil).2] at hbreak
      simp at hbreak
    · rw [List.append_assoc, hthrough, extent_append, BytePosition.line_add]

/-! ## All edits -/

/-- The edits that do not end in front of a line lie behind it, if none touches it. -/
theorem lt_line_of_mem_others {c : BytePosition}
    (huntouched : ∀ edit ∈ edits, ¬ edit.TouchesLine c.line)
    (h : edit ∈ applicationOrder (edits.filter fun edit => !decide (edit.EndsBefore e t c))) :
    c.line < edit.range.start.line := by
  obtain ⟨raw, hraw, rfl⟩ := mem_applicationOrder.1 h
  obtain ⟨hmem, hothers⟩ := List.mem_filter.1 hraw
  have hothers : ¬ raw.EndsBefore e t c := by simpa using hothers
  have hle : c ≤ raw.normalized.range.stop.inText e t := BytePosition.not_lt.1 hothers
  have hstop : c.line ≤ raw.normalized.range.stop.line := by
    rw [BytePosition.le_def, Position.inText, Position.line_decode] at hle
    omega
  by_contra hstart
  exact huntouched raw hmem ⟨Nat.le_of_not_lt hstart, hstop⟩

/-- Those that do end in front of it, end on an earlier line. -/
theorem line_lt_of_mem_before (h : ValidBatch e t edits) {c : BytePosition} (hc : c.column = 0)
    (hmem : edit ∈ applicationOrder (edits.filter fun edit => edit.EndsBefore e t c)) :
    edit.range.stop.line < c.line := by
  have hbefore := h.filter fun edit => edit.EndsBefore e t c
  have hlt := extent_lt_of_mem_before h hmem
  rw [BytePosition.lt_def, line_upTo (hbefore.isExact hmem).2] at hlt
  omega

theorem replacements_append (t : Text) (edits edits' : List TextEdit) :
    t.replacements e (edits ++ edits') =
      t.replacements e edits ++ (t.edited e edits).replacements e edits' := by
  induction edits generalizing t with
  | nil => rfl
  | cons edit rest ih => exact congrArg _ (ih _)

/-- A valid batch that leaves a line alone has it in the end as well, and a mark on it has gone
there. -/
theorem LineAt.exists_followed (hline : t.LineAt s line x) (h : ValidBatch e t edits)
    (hm : m.position.line = s.extent.line)
    (huntouched : ∀ edit ∈ edits, ¬ edit.TouchesLine m.position.line) :
    ∃ s' x', (t.edited e (applicationOrder edits)).LineAt s' line x' ∧ (s = [] → s' = []) ∧
      (x' = [] → x = []) ∧
      m.through? t (t.replacements e (applicationOrder edits)) =
        some ⟨m.name, ⟨s'.extent.line, m.position.column⟩⟩ := by
  have hcolumn : s.extent.column = 0 := byteLength_eq_zero_iff.2 hline.opens
  have hothers := h.filter fun edit => !decide (edit.EndsBefore e t s.extent)
  have hbefore := h.filter fun edit => edit.EndsBefore e t s.extent
  obtain ⟨x', hline', hnil, hstay⟩ := hline.exists_of_behind hothers.descends hm
    fun _ hy => lt_line_of_mem_others (hm ▸ huntouched) hy
  obtain ⟨s', hs', hopens, hnil', hmoved⟩ := exists_of_inFront hbefore.descends
    ⟨line ++ x, hline.text_eq.symm⟩ hline.opens hm
    (fun _ hy => line_lt_of_mem_before h hcolumn hy) (line ++ x')
  rw [← hline'.text_eq] at hs' hmoved
  refine ⟨s', x', ?_, hnil', hnil, ?_⟩
  · rw [applicationOrder_eq_append h s.extent, edited_append, hs']
    exact ⟨rfl, hopens, hline.unbroken, hline'.closes⟩
  · rw [applicationOrder_eq_append h s.extent, replacements_append, Mark.through?_append,
      ← edited_eq_foldl, hstay, Option.bind_some, hmoved]

end Text

/-- A valid batch that leaves the line of a mark alone takes the mark to where the line is in the
end. Whether or not an empty last line is taken away makes no difference. -/
theorem Buffer.exists_followed (config : Config) {e : Encoding} {b : Buffer}
    {edits : List TextEdit} (h : ValidBatch e b.text edits) {m : Mark} {line : Text}
    (hline : b.text.line? m.position.line = some line)
    (huntouched : ∀ edit ∈ edits, ¬ edit.TouchesLine m.position.line) :
    ∃ m' : Mark, m'.position.column = m.position.column ∧
      m.through? b.text (b.text.replacements e (applicationOrder edits)) = some m' ∧
      m.through? b.text (b.replacements config e edits) = some m' ∧
      Text.line? ((b.replacements config e edits).foldl Text.amended b.text) m'.position.line =
        some line := by
  obtain ⟨s, x, hline, hm⟩ := Text.exists_lineAt hline
  obtain ⟨s', x', hline', hs', hx', hthrough⟩ := hline.exists_followed h hm.symm huntouched
  refine ⟨⟨m.name, ⟨s'.extent.line, m.position.column⟩⟩, rfl, hthrough, ?_⟩
  rw [Text.edited_eq_foldl] at hline'
  unfold Buffer.replacements
  dsimp only
  split_ifs with htrim
  · simp only [Bool.and_eq_true, Bool.not_eq_true'] at htrim
    obtain ⟨⟨⟨-, hbroken⟩, -⟩, hends⟩ := htrim
    -- if the line were the last one and empty, it would have been so from the beginning
    have hne : x' ≠ [] := by
      rintro rfl
      obtain rfl := hx' rfl
      obtain ⟨rfl, hs⟩ := hline'.endsInBreak_iff.1 hends
      have hends' := hline.endsInBreak_iff.2 ⟨rfl, mt hs' hs⟩
      exact absurd hends' (Bool.eq_false_iff.1 hbroken)
    rw [Mark.through?_append, hthrough, Option.bind_some, List.foldl_append, List.foldl_cons,
      List.foldl_nil, Mark.through?, hline'.followed_finalBreak hne hends rfl,
      Text.amended_finalBreak hends]
    exact ⟨rfl, (hline'.dropLast hne).line?_eq⟩
  · exact ⟨hthrough, hline'.line?_eq⟩

end WorkspaceEditing
