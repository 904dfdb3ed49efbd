import WorkspaceEditing.Proofs.Host.Account
import WorkspaceEditing.Proofs.Session.Marks
import WorkspaceEditing.Proofs.Text.Place

/-!
# Marks and whole lines

To replace whole lines, a call names the range from the start of the first one to the start of the
line behind the last one, and gives the new lines with an empty one at the end. The line on which the
range ends keeps its text and goes where the new lines push it. The editor takes it for a replaced
line all the same: a mark on it stays on the line of its number, as long as the new lines reach down
to that, and is dropped otherwise. A mark on any later line goes with its line.

## Main results

* `Text.line?_amended_wholeLines` — where the line behind the replaced ones goes.
* `Editor.setText_boundary` — a mark on that line stays behind, or is dropped.
* `Editor.setText_below` — a mark further down follows its line.
-/

namespace WorkspaceEditing

/-- Whole lines give way to others: the lines from `i` on, up to line `j`, which stays. -/
def Replacement.ofWholeLines (i j : Nat) (ls : List Text) : Replacement :=
  ⟨⟨⟨i, 0⟩, ⟨j, 0⟩⟩, ls ++ [[]]⟩

namespace Text

variable {t line : Text} {i j : Nat}

/-- An empty line at the end puts a line feed behind each of the others. -/
theorem ofLines_concat_nil (ls : List Text) : ofLines (ls ++ [[]]) = ls.flatMap (· ++ ['\n']) := by
  induction ls with
  | nil => rfl
  | cons l ls ih =>
    obtain ⟨next, others, hne⟩ := List.exists_cons_of_ne_nil (List.concat_ne_nil [] ls)
    rw [List.flatMap_cons, ← ih, ofLines, ofLines, List.cons_append, hne, joined_cons_cons]
    simp

/-- Such a text ends at the start of a line. -/
theorem column_extent_ofLines_concat_nil (ls : List Text) :
    (ofLines (ls ++ [[]])).extent.column = 0 := by
  rw [ofLines_concat_nil]
  induction ls with
  | nil => rfl
  | cons l ls ih =>
    have hbreak : (extent (l ++ ['\n'])).column = 0 := by
      rw [extent_append]
      rfl
    rw [List.flatMap_cons, extent_append, BytePosition.column_add, hbreak, ih]
    simp

/-- It has a line feed for each of the lines, and those that are in the lines. -/
theorem line_extent_ofLines_concat_nil (ls : List Text) :
    (ofLines (ls ++ [[]])).extent.line = ls.length + (ls.map (·.count '\n')).sum := by
  rw [ofLines_concat_nil]
  induction ls with
  | nil => rfl
  | cons l ls ih =>
    have hbreak : (extent (l ++ ['\n'])).line = l.count '\n' + 1 := by simp [extent]
    rw [List.flatMap_cons, extent_append, BytePosition.line_add, hbreak, ih]
    simp only [List.length_cons, List.map_cons, List.sum_cons]
    omega

/-- What stands in front of the replaced lines, in them, and behind them. -/
theorem exists_wholeLines (hij : i ≤ j) (hline : t.line? j = some line) (ls : List Text) :
    ∃ s m x, t = s ++ m ++ x ∧
      (Replacement.ofWholeLines i j ls).range = ⟨s.extent, (s ++ m).extent⟩ ∧
      x.firstLine = line := by
  have hj : j < t.lineCount := (List.getElem?_eq_some_iff.1 hline).1
  have hstart {n : Nat} (hn : n < t.lineCount) : t.HasPlace ⟨n, 0⟩ :=
    Has.hasPlace_of_column ⟨_, List.getElem?_eq_getElem hn, Nat.zero_le _⟩ rfl
  have hrange : t.HasRange ⟨⟨i, 0⟩, ⟨j, 0⟩⟩ :=
    ⟨hstart (hij.trans_lt hj), hstart hj, BytePosition.le_def.2 (by dsimp only; omega)⟩
  obtain ⟨s, m, x, rfl, hr⟩ := hasRange_iff.1 hrange
  refine ⟨s, m, x, rfl, hr, ?_⟩
  have hstop : (⟨j, 0⟩ : BytePosition) = (s ++ m).extent := congrArg ByteRange.stop hr
  have hlast : (s ++ m).lastLine = [] :=
    byteLength_eq_zero_iff.1 (congrArg BytePosition.column hstop).symm
  have hcut := line?_append (s ++ m) x
  rw [← hstop, hline, hlast] at hcut
  exact (Option.some.inj hcut).symm

/-- The line behind the replaced ones comes to stand behind the new ones. -/
theorem line?_amended_wholeLines (hij : i ≤ j) (hline : t.line? j = some line) (ls : List Text) :
    (t.amended (.ofWholeLines i j ls)).line? (i + (ofLines (ls ++ [[]])).extent.line) =
      some line := by
  obtain ⟨s, m, x, rfl, hr, rfl⟩ := exists_wholeLines hij hline ls
  have hstart : (⟨i, 0⟩ : BytePosition) = s.extent := congrArg ByteRange.start hr
  have hnew : (s ++ ofLines (ls ++ [[]])).extent =
      ⟨i + (ofLines (ls ++ [[]])).extent.line, 0⟩ := by
    rw [extent_append, ← hstart]
    ext
    · rfl
    · simp [BytePosition.column_add, column_extent_ofLines_concat_nil]
  have hlast : (s ++ ofLines (ls ++ [[]])).lastLine = [] :=
    byteLength_eq_zero_iff.1 (congrArg BytePosition.column hnew)
  have hcut := line?_append (s ++ ofLines (ls ++ [[]])) x
  rw [hnew, hlast, List.nil_append] at hcut
  rw [amended_eq hr]
  exact hcut

/-- Where a text is cut, the lines further down are those of the second part. -/
theorem line?_append_add {d : Nat} (hd : 0 < d) (s x : Text) :
    (s ++ x).line? (s.extent.line + d) = x.line? d := by
  obtain ⟨n, rfl⟩ := Nat.exists_eq_add_of_lt hd
  have hlen : s.lines.dropLast.length = s.extent.line := by
    rw [List.length_dropLast, ← lineCount, lineCount_eq_extent]
    rfl
  obtain ⟨first, others, hx⟩ := List.exists_cons_of_ne_nil (lines_ne_nil x)
  rw [line?, line?, lines_append, ← hlen, hx, Nat.zero_add,
    List.getElem?_append_right (Nat.le_add_right _ _), Nat.add_sub_cancel_left]
  rfl

end Text

/-! ## Marks -/

namespace Mark

variable {t line : Text} {i j : Nat} {m : Mark}

/-- A mark on the line at whose start the range ends stays where it is as long as the new lines reach
down to that line, counted from the first one that gives way. -/
theorem followed_boundary (hm : m.position.line = j) {newLines lineCount : Nat}
    (hnew : 0 < newLines) (hlt : j < i + newLines → j < lineCount) :
    m.followed ⟨⟨i, 0⟩, ⟨j, 0⟩⟩ newLines lineCount = if j < i + newLines then some m else none := by
  subst hm
  unfold followed
  dsimp only
  rw [if_neg (Nat.lt_irrefl _)]
  grind

theorem through?_singleton (t : Text) (r : Replacement) (m : Mark) :
    m.through? t [r] =
      m.followed r.range (max r.newLines.length 1) (t.amended r).lineCount :=
  Option.bind_fun_some _

theorem through?_boundary (hij : i ≤ j) (hline : t.line? j = some line) (hm : m.position.line = j)
    (ls : List Text) :
    m.through? t [.ofWholeLines i j ls] = if j ≤ i + ls.length then some m else none := by
  have hlt : i + (Text.ofLines (ls ++ [[]])).extent.line <
      (t.amended (.ofWholeLines i j ls)).lineCount :=
    (List.getElem?_eq_some_iff.1 (Text.line?_amended_wholeLines hij hline ls)).1
  rw [Text.line_extent_ofLines_concat_nil] at hlt
  have hlength : max (ls ++ [[]]).length 1 = ls.length + 1 := by simp
  have hreach : j < i + (ls.length + 1) ↔ j ≤ i + ls.length := by omega
  rw [through?_singleton]
  show m.followed ⟨⟨i, 0⟩, ⟨j, 0⟩⟩ (max (ls ++ [[]]).length 1)
    (t.amended (.ofWholeLines i j ls)).lineCount = _
  rw [hlength, followed_boundary hm (Nat.succ_pos ls.length)]
  · simp only [hreach]
  · omega

/-- A mark further down moves by as many lines as there are more or fewer. -/
theorem exists_through?_below (hij : i ≤ j) (hm : j < m.position.line)
    (hline : t.line? m.position.line = some line) {ls : List Text} (hls : ∀ l ∈ ls, '\n' ∉ l) :
    ∃ m', m.through? t [.ofWholeLines i j ls] = some m' ∧
      m'.position.column = m.position.column ∧
      (t.amended (.ofWholeLines i j ls)).line? m'.position.line = some line := by
  have hj : j < t.lineCount := hm.trans (List.getElem?_eq_some_iff.1 hline).1
  obtain ⟨s, mid, x, rfl, hr, -⟩ :=
    Text.exists_wholeLines hij (List.getElem?_eq_getElem hj) ls
  have hstop : (⟨j, 0⟩ : BytePosition) = (s ++ mid).extent := congrArg ByteRange.stop hr
  let new := Text.ofLines (ls ++ [[]])
  have hcount : new.extent.line = ls.length := by
    rw [Text.line_extent_ofLines_concat_nil, List.sum_eq_zero, Nat.add_zero]
    rintro n hn
    obtain ⟨l, hl, rfl⟩ := List.mem_map.1 hn
    exact List.count_eq_zero.2 (hls l hl)
  have hlength : (ls ++ [[]]).length = new.lines.length := by
    rw [← Text.lineCount, Text.lineCount_eq_extent, hcount]
    simp
  obtain ⟨d, hd⟩ := Nat.exists_eq_add_of_le hm.le
  have hpos : 0 < d := by omega
  have hd : m.position.line = (s ++ mid).extent.line + d := by rw [hd, ← hstop]
  rw [hd, Text.line?_append_add hpos] at hline
  have hx : d ≤ x.extent.line := by
    have hlt : d < x.lineCount := (List.getElem?_eq_some_iff.1 hline).1
    rw [Text.lineCount_eq_extent] at hlt
    omega
  refine ⟨⟨m.name, ⟨(s ++ new).extent.line + d, m.position.column⟩⟩, ?_, rfl, ?_⟩
  · rw [through?_singleton, Text.amended_eq hr, hr]
    show m.followed _ (max (ls ++ [[]]).length 1) (Text.lineCount (s ++ new ++ x)) = _
    rw [hlength, List.append_assoc s new x]
    exact followed_append hpos hx hd new
  · rw [Text.amended_eq hr]
    exact (Text.line?_append_add hpos (s ++ new) x).trans hline

end Mark

/-- A mark of the same name is set in the end exactly where the editor takes the one that was. -/
theorem Buffer.mem_marks_amended {b : Buffer} (h : b.marks.Ordered) (r : Replacement) {m x : Mark}
    (hm : m ∈ b.marks) :
    x ∈ (b.amended r).marks ∧ x.name = m.name ↔ m.through? b.text [r] = some x := by
  have hmarks : (b.amended r).marks = b.marks.filterMap (Mark.through? b.text [r]) :=
    marks_foldl_amended b [r]
  rw [hmarks, List.mem_filterMap]
  constructor
  · rintro ⟨⟨other, hother, hx⟩, hname⟩
    obtain rfl := h.eq_of_name hother hm ((Mark.name_of_through? hx).symm.trans hname)
    exact hx
  · intro hx
    exact ⟨⟨m, hm, hx⟩, Mark.name_of_through? hx⟩

namespace Editor

variable {disk : Disk} {steps : List Session.Step} {w : World Editor} {id : BufferId} {b : Buffer}
  {i j : Nat} {line : Text} {m : Mark}

theorem setText_wholeLines (hbuffer : w.host.buffer? id = some b) (hij : i ≤ j)
    (hj : j < b.text.lineCount) (ls : List Text) :
    asHost.setText id ⟨⟨i, 0⟩, ⟨j, 0⟩⟩ (ls ++ [[]]) w =
      .ok () { w with host := w.host.amended b (.ofWholeLines i j ls) } := by
  obtain ⟨s, mid, x, ht, hr, -⟩ :=
    Text.exists_wholeLines hij (List.getElem?_eq_getElem hj) ls
  have hfits : (Replacement.ofWholeLines i j ls).Fits b.text := ⟨s, mid, x, ht, hr⟩
  exact setText_ok hbuffer hfits

/-- In every session, whole lines are replaced in front of a line, which is pushed to where the new
lines end. A mark on that line stays on the line of the same number if the new lines reach down to
that, and is dropped if they do not. So it follows its line only if as many lines come in as go. -/
theorem setText_boundary (hw : Session.run ⟨.empty, disk⟩ steps = w)
    (hbuffer : w.host.buffer? id = some b) (hij : i ≤ j) (hline : b.text.line? j = some line)
    (ls : List Text) (hm : m ∈ b.marks) (hmark : m.position.line = j) :
    ∃ w' b', asHost.setText id ⟨⟨i, 0⟩, ⟨j, 0⟩⟩ (ls ++ [[]]) w = .ok () w' ∧
      w'.host.buffer? id = some b' ∧
      b'.text.line? (i + (Text.ofLines (ls ++ [[]])).count '\n') = some line ∧
      (j ≤ i + ls.length → ∀ x, x ∈ b'.marks ∧ x.name = m.name ↔ x = m) ∧
      (i + ls.length < j → m.name ∉ b'.marks.names) ∧
      (⟨m.name, ⟨i + (Text.ofLines (ls ++ [[]])).count '\n', m.position.column⟩⟩ ∈ b'.marks ↔
        j ≤ i + ls.length ∧ j = i + (Text.ofLines (ls ++ [[]])).count '\n') := by
  subst hw
  have hordered := (Session.marksOrdered_run disk steps).of_buffer? hbuffer
  have hj : j < b.text.lineCount := (List.getElem?_eq_some_iff.1 hline).1
  have hiff (x : Mark) := Buffer.mem_marks_amended hordered (.ofWholeLines i j ls) (x := x) hm
  simp only [Mark.through?_boundary hij hline hmark ls] at hiff
  refine ⟨_, _, setText_wholeLines hbuffer hij hj ls, buffer?_amended hbuffer,
    Text.line?_amended_wholeLines hij hline ls, ?_, ?_, ?_⟩
  · intro h x
    rw [hiff, if_pos h, Option.some.injEq, eq_comm]
  · intro h hname
    obtain ⟨x, hx, hname⟩ := List.mem_map.1 hname
    have hnone := (hiff x).1 ⟨hx, hname⟩
    rw [if_neg (Nat.not_le.2 h)] at hnone
    exact absurd hnone (Option.some_ne_none x).symm
  · obtain ⟨name, ⟨onLine, column⟩⟩ := m
    obtain rfl : onLine = j := hmark
    have hmoved := hiff ⟨name, ⟨i + (Text.ofLines (ls ++ [[]])).count '\n', column⟩⟩
    rw [and_iff_left rfl] at hmoved
    rw [hmoved]
    split_ifs with h <;> simp [h]

/-- Two lines give way to one: the mark on the line behind them is dropped, though the line stays. -/
theorem setText_boundary_drops :
    let b : Buffer := { Buffer.new ⟨1⟩ ⟨[]⟩ ['a', '\n', 'b', '\n', 'é', 'c'] with
      marks := [⟨'1', ⟨0, 0⟩⟩, ⟨'m', ⟨2, 2⟩⟩] }
    let w := Session.run ⟨.empty, .empty⟩ [.editor (.insertBuffer b.path b.text),
      .editor (.call (.setMarks b.id b.marks))]
    let m : Mark := ⟨'m', ⟨2, 2⟩⟩
    w.host.buffer? b.id = some b ∧ b.text.line? 2 = some ['é', 'c'] ∧ m ∈ b.marks ∧
      m.position.line = 2 ∧
      ∃ w' b', asHost.setText b.id ⟨⟨0, 0⟩, ⟨2, 0⟩⟩ [['x'], []] w = .ok () w' ∧
        w'.host.buffer? b.id = some b' ∧ b'.text.line? 1 = some ['é', 'c'] ∧
        m.name ∉ b'.marks.names := by
  intro b w m
  have hbuffer : w.host.buffer? b.id = some b := by decide
  have hline : b.text.line? 2 = some ['é', 'c'] := by decide
  have hm : m ∈ b.marks := by decide
  obtain ⟨w', b', hset, hafter, hline', -, hdropped, -⟩ :=
    setText_boundary rfl hbuffer (Nat.zero_le 2) hline [['x']] hm rfl
  exact ⟨hbuffer, hline, hm, rfl, w', b', hset, hafter, hline', hdropped (by decide)⟩

/-- A line is put in front of the second of two, and the first of two is taken away. The line behind
is there both times, one further down and one further up; the mark on it is not with it. -/
theorem setText_boundary_parts_mark_from_line :
    let w := Session.run ⟨.empty, .empty⟩ [.editor (.insertBuffer ⟨[]⟩ ['a', '\n', 'b']),
      .editor (.call (.setMarks ⟨1⟩ [⟨'m', ⟨1, 0⟩⟩]))]
    let putIn := Session.run w [.editor (.call (.setText ⟨1⟩ ⟨⟨1, 0⟩, ⟨1, 0⟩⟩ [['x'], []]))]
    let takenAway := Session.run w [.editor (.call (.setText ⟨1⟩ ⟨⟨0, 0⟩, ⟨1, 0⟩⟩ [[]]))]
    w.host.line ⟨1⟩ 1 = .ok (some ['b']) ∧ w.host.marks ⟨1⟩ = .ok [⟨'m', ⟨1, 0⟩⟩] ∧
      putIn.host.line ⟨1⟩ 2 = .ok (some ['b']) ∧ putIn.host.marks ⟨1⟩ = .ok [⟨'m', ⟨1, 0⟩⟩] ∧
      takenAway.host.line ⟨1⟩ 0 = .ok (some ['b']) ∧ takenAway.host.marks ⟨1⟩ = .ok [] := by
  decide +kernel

/-- In every session, a mark further down follows its line. -/
theorem setText_below (hw : Session.run ⟨.empty, disk⟩ steps = w)
    (hbuffer : w.host.buffer? id = some b) (hij : i ≤ j) {ls : List Text}
    (hls : ∀ l ∈ ls, '\n' ∉ l) (hm : m ∈ b.marks) (hmark : j < m.position.line)
    (hline : b.text.line? m.position.line = some line) :
    ∃ w' b' m', asHost.setText id ⟨⟨i, 0⟩, ⟨j, 0⟩⟩ (ls ++ [[]]) w = .ok () w' ∧
      w'.host.buffer? id = some b' ∧ (∀ x, x ∈ b'.marks ∧ x.name = m.name ↔ x = m') ∧
      m'.position.column = m.position.column ∧ b'.text.line? m'.position.line = some line := by
  subst hw
  have hordered := (Session.marksOrdered_run disk steps).of_buffer? hbuffer
  have hj : j < b.text.lineCount := hmark.trans (List.getElem?_eq_some_iff.1 hline).1
  obtain ⟨m', hthrough, hcolumn, hline'⟩ := Mark.exists_through?_below hij hmark hline hls
  refine ⟨_, _, m', setText_wholeLines hbuffer hij hj ls, buffer?_amended hbuffer, ?_, hcolumn,
    hline'⟩
  intro x
  rw [Buffer.mem_marks_amended hordered _ hm, hthrough, Option.some.injEq, eq_comm]

end Editor

end WorkspaceEditing
