import WorkspaceEditing.Proofs.Batch.Run
import WorkspaceEditing.Proofs.Protocol.Order
import WorkspaceEditing.Proofs.Text.Mark

/-!
# What a batch makes of marks

The editor moves the marks of a buffer along with every replacement, and drops those whose line is
replaced away. A batch comes down to a list of replacements, so a mark either goes through all of
them or is dropped by one. A letter mark that is dropped is set again where it was, or as near to it
as the final text allows.

## Main definitions

* `Text.replacements`, `Buffer.replacements` — the replacements that a batch comes down to.
* `Mark.through?` — where the editor takes a mark across replacements, if it keeps it.
* `Buffer.MarksKept` — what becomes of the marks of a buffer when no letter mark is lost.

## Main results

* `Buffer.mem_marks_afterBatch` — a mark that goes through all replacements is set in the end.
* `Buffer.marksKept_afterBatch` — no batch loses a letter mark.
-/

namespace WorkspaceEditing

open Protocol

/-! ## The replacements of a batch -/

/-- The replacements that edits ask for, each in the text that those before it have left. -/
def Text.replacements (e : Encoding) : Text → List TextEdit → List Replacement
  | _, [] => []
  | t, edit :: rest =>
    edit.replacementIn e t :: replacements e (t.amended (edit.replacementIn e t)) rest

/-- The replacements that a batch comes down to: those of its edits, in the order in which they are
applied, and the one that takes an empty last line away. -/
def Buffer.replacements (config : Config) (e : Encoding) (b : Buffer) (edits : List TextEdit) :
    List Replacement :=
  let rs := b.text.replacements e (applicationOrder edits)
  let edited := rs.foldl Text.amended b.text
  if config.trimFinalNewline && !b.text.endsInBreak && b.fixesEndOfLine && edited.endsInBreak then
    rs ++ [edited.finalBreak]
  else rs

theorem Text.edited_eq_foldl (e : Encoding) (t : Text) (edits : List TextEdit) :
    t.edited e edits = (t.replacements e edits).foldl Text.amended t := by
  induction edits generalizing t with
  | nil => rfl
  | cons edit rest ih => exact ih _

theorem Buffer.edited_eq_foldl (e : Encoding) (b : Buffer) (edits : List TextEdit) :
    b.edited e edits = (b.text.replacements e edits).foldl Buffer.amended b := by
  induction edits generalizing b with
  | nil => rfl
  | cons edit rest ih => exact ih _

/-- Every edit asks for a replacement, so that a batch comes down to one at least. -/
theorem Buffer.replacements_ne_nil (config : Config) (e : Encoding) (b : Buffer)
    {edits : List TextEdit} (h : edits ≠ []) : b.replacements config e edits ≠ [] := by
  obtain ⟨edit, hedit⟩ := List.exists_mem_of_ne_nil edits h
  have hmem : edit.normalized ∈ applicationOrder edits := mem_applicationOrder.2 ⟨edit, hedit, rfl⟩
  have hrs : b.text.replacements e (applicationOrder edits) ≠ [] := by
    cases horder : applicationOrder edits with
    | nil => simp [horder] at hmem
    | cons first rest => exact List.cons_ne_nil _ _
  unfold Buffer.replacements
  dsimp only
  split_ifs
  · exact List.append_ne_nil_of_left_ne_nil hrs _
  · exact hrs

/-! ## Marks across replacements -/

/-- Where the editor takes a mark when replacements are carried out one after the other in a text,
if none of them drops it. -/
def Mark.through? : Text → List Replacement → Mark → Option Mark
  | _, [], m => some m
  | t, r :: rest, m =>
    (m.followed r.range (max r.newLines.length 1) (t.amended r).lineCount).bind
      (through? (t.amended r) rest)

namespace Mark

variable {t : Text} {rs : List Replacement} {m m' : Mark}

theorem name_of_through? (h : m.through? t rs = some m') : m'.name = m.name := by
  induction rs generalizing t m with
  | nil => rw [Option.some.inj h]
  | cons r rest ih =>
    obtain ⟨mid, hmid, h⟩ := Option.bind_eq_some_iff.1 h
    exact (ih h).trans (name_of_followed hmid)

theorem through?_append (t : Text) (rs rs' : List Replacement) (m : Mark) :
    m.through? t (rs ++ rs') =
      (m.through? t rs).bind (through? (rs.foldl Text.amended t) rs') := by
  induction rs generalizing t m with
  | nil => rfl
  | cons r rest ih =>
    rw [List.cons_append, through?, through?, List.foldl_cons, Option.bind_assoc]
    congr 1
    funext mid
    exact ih _ mid

/-- Wherever a mark was, after a replacement it is on a line of the text. -/
theorem line_lt_of_through? (hrs : rs ≠ []) (h : m.through? t rs = some m') :
    m'.position.line < Text.lineCount (rs.foldl Text.amended t) := by
  induction rs generalizing t m with
  | nil => exact absurd rfl hrs
  | cons r rest ih =>
    obtain ⟨mid, hmid, h⟩ := Option.bind_eq_some_iff.1 h
    cases rest with
    | nil =>
      obtain rfl := Option.some.inj h
      exact line_lt_of_followed hmid
    | cons r' rest => exact ih (List.cons_ne_nil _ _) h

end Mark

namespace Buffer

/-- What becomes of the marks of a buffer `b`, of which `b'` is left by replacements, when no letter
mark is lost. -/
structure MarksKept (b b' : Buffer) (rs : List Replacement) : Prop where
  text_eq : b'.text = rs.foldl Text.amended b.text
  /-- There is still at most one mark of each name. -/
  ordered : b'.marks.Ordered
  letters : ∀ c, 'a' ≤ c → c ≤ 'z' → (c ∈ b'.marks.names ↔ c ∈ b.marks.names)
  names : ∀ c ∈ b'.marks.names, c ∈ b.marks.names
  inside : ∀ m ∈ b'.marks, m.position.line < b'.text.lineCount
  /-- A mark that the editor keeps is where the editor has taken it. -/
  kept : ∀ m ∈ b.marks, ∀ m', m.through? b.text rs = some m' → m' ∈ b'.marks
  /-- A letter mark that the editor drops is where it was, or on the last line if its line is gone,
  or at the end of the line if it is shorter. -/
  restored : ∀ m ∈ b.marks, m.through? b.text rs = none → m.isLocalLetter = true →
    ∃ line, b'.text.line? (min m.position.line (b'.text.lineCount - 1)) = some line ∧
      ⟨m.name, ⟨min m.position.line (b'.text.lineCount - 1),
        min m.position.column line.byteLength⟩⟩ ∈ b'.marks
  /-- Any other mark that the editor drops is gone. -/
  dropped : ∀ m ∈ b.marks, m.through? b.text rs = none → m.isLocalLetter = false →
    m.name ∉ b'.marks.names

variable {b c : Buffer} {rs : List Replacement}

/-! ## Carrying replacements out -/

@[simp] theorem text_foldl_amended (b : Buffer) (rs : List Replacement) :
    (rs.foldl Buffer.amended b).text = rs.foldl Text.amended b.text := by
  induction rs generalizing b with
  | nil => rfl
  | cons r rest ih => exact ih _

/-- The marks that are left are those that have gone through all replacements. -/
theorem marks_foldl_amended (b : Buffer) (rs : List Replacement) :
    (rs.foldl Buffer.amended b).marks = b.marks.filterMap (Mark.through? b.text rs) := by
  induction rs generalizing b with
  | nil => simp [Mark.through?]
  | cons r rest ih =>
    rw [List.foldl_cons, ih]
    simp only [amended, Marks.followed, List.filterMap_filterMap, Mark.through?]

/-- The name of a mark is missing if the mark was dropped. -/
theorem not_mem_names_iff (h : b.marks.Ordered)
    (hc : c.marks = b.marks.filterMap (Mark.through? b.text rs)) {m : Mark} (hm : m ∈ b.marks) :
    m.name ∉ c.marks.names ↔ m.through? b.text rs = none := by
  rw [hc, Option.eq_none_iff_forall_ne_some]
  constructor
  · intro hname m' hm'
    apply hname
    rw [← Mark.name_of_through? hm']
    exact List.mem_map_of_mem (List.mem_filterMap.2 ⟨m, hm, hm'⟩)
  · intro hnone hname
    obtain ⟨m', hm', hname⟩ := List.mem_map.1 hname
    obtain ⟨other, hother, hm'⟩ := List.mem_filterMap.1 hm'
    obtain rfl : other = m := h.eq_of_name hother hm ((Mark.name_of_through? hm').symm.trans hname)
    exact hnone m' hm'

/-- The marks that are left are in order still. -/
theorem ordered_of_filterMap (h : b.marks.Ordered)
    (hc : c.marks = b.marks.filterMap (Mark.through? b.text rs)) : c.marks.Ordered := by
  rw [hc]
  refine List.Pairwise.filterMap _ ?_ h
  intro m m' hlt x hx x' hx'
  rw [Mark.name_of_through? hx, Mark.name_of_through? hx']
  exact hlt

/-! ## Setting marks again -/

/-- The mark pulled back inside the text of a buffer. -/
def pulledBack (c : Buffer) (m : Mark) : Mark :=
  m.clamped c.text.lineCount fun line => ((c.text.line? line).map Text.byteLength).getD 0

/-- To set lost marks again adds them to those that are there. -/
theorem mem_marks_repaired {saved : List Mark} (h : Marks.Ordered saved) {m : Mark} :
    m ∈ (c.repaired saved).marks ↔ m ∈ c.lost saved ∨ m ∈ c.marks := by
  have hnames : Marks.names (c.lost saved) =
      Marks.names (saved.filter fun m => !c.marks.names.contains m.name) := by
    simp [Marks.names, lost, Function.comp_def]
  apply Marks.mem_foldl_set
  · rw [hnames]
    exact (Marks.Ordered.nodup_names h).sublist (List.filter_sublist.map _)
  · intro m hm
    obtain ⟨old, hold, rfl⟩ := List.mem_map.1 hm
    simpa using (List.mem_filter.1 hold).2

/-- Every mark that is set in the end has gone through the replacements, or is a letter mark that
was dropped and pulled back inside the text. -/
theorem mem_marks_repaired_iff (h : b.marks.Ordered)
    (hc : c.marks = b.marks.filterMap (Mark.through? b.text rs)) {x : Mark} :
    x ∈ (c.repaired (b.marks.filter (·.isLocalLetter))).marks ↔
      ∃ m ∈ b.marks, m.through? b.text rs = some x ∨
        m.through? b.text rs = none ∧ m.isLocalLetter = true ∧ x = c.pulledBack m := by
  rw [mem_marks_repaired (h.filter _)]
  constructor
  · rintro (hx | hx)
    · obtain ⟨m, hm, rfl⟩ := List.mem_map.1 hx
      simp only [List.mem_filter, Bool.not_eq_true', List.contains_eq_mem,
        decide_eq_false_iff_not] at hm
      exact ⟨m, hm.1.1, .inr ⟨(not_mem_names_iff h hc hm.1.1).1 hm.2, hm.1.2, rfl⟩⟩
    · rw [hc] at hx
      obtain ⟨m, hm, hx⟩ := List.mem_filterMap.1 hx
      exact ⟨m, hm, .inl hx⟩
  · rintro ⟨m, hm, hx | ⟨hnone, hletter, rfl⟩⟩
    · rw [hc]
      exact .inr (List.mem_filterMap.2 ⟨m, hm, hx⟩)
    · refine .inl (List.mem_map.2 ⟨m, ?_, rfl⟩)
      have hname := (not_mem_names_iff h hc hm).2 hnone
      simp [hm, hletter, hname]

theorem pulledBack_eq (c : Buffer) (m : Mark) :
    ∃ line, c.text.line? (min m.position.line (c.text.lineCount - 1)) = some line ∧
      c.pulledBack m = ⟨m.name, ⟨min m.position.line (c.text.lineCount - 1),
        min m.position.column line.byteLength⟩⟩ := by
  have hcount := c.text.lineCount_eq
  obtain ⟨line, hline⟩ := Text.exists_line? (t := c.text)
    (n := min m.position.line (c.text.lineCount - 1)) (by omega)
  refine ⟨line, hline, ?_⟩
  simp only [pulledBack, Mark.clamped, Mark.landingLine, hline, Option.map_some, Option.getD_some]

/-- No letter mark is lost if those that the replacements drop are set again. -/
theorem marksKept_repaired (h : b.marks.Ordered) (hrs : rs ≠ [])
    (htext : c.text = rs.foldl Text.amended b.text)
    (hc : c.marks = b.marks.filterMap (Mark.through? b.text rs)) :
    b.MarksKept (c.repaired (b.marks.filter (·.isLocalLetter))) rs := by
  have hmem {x : Mark} := mem_marks_repaired_iff h hc (x := x)
  have hordered := ordered_of_filterMap h hc
  -- a mark that is set has the name of the one that it comes from
  have hname {x m : Mark} (hx : m.through? b.text rs = some x ∨
      m.through? b.text rs = none ∧ m.isLocalLetter = true ∧ x = c.pulledBack m) :
      x.name = m.name := by
    rcases hx with hx | ⟨-, -, rfl⟩
    · exact Mark.name_of_through? hx
    · rfl
  have hnames (name : Char)
      (hset : name ∈ (c.repaired (b.marks.filter (·.isLocalLetter))).marks.names) :
      name ∈ b.marks.names := by
    obtain ⟨x, hx, rfl⟩ := List.mem_map.1 hset
    obtain ⟨m, hm, hx⟩ := hmem.1 hx
    exact hname hx ▸ List.mem_map_of_mem hm
  refine ⟨htext, hordered.foldl_set _, ?letters, hnames, ?inside, ?kept, ?restored, ?dropped⟩
  case letters =>
    intro name ha hz
    refine ⟨hnames name, ?_⟩
    intro hset
    obtain ⟨m, hm, rfl⟩ := List.mem_map.1 hset
    cases hthrough : m.through? b.text rs with
    | some x =>
      rw [← Mark.name_of_through? hthrough]
      exact List.mem_map_of_mem (hmem.2 ⟨m, hm, .inl hthrough⟩)
    | none =>
      have hletter : m.isLocalLetter = true := by simp [Mark.isLocalLetter, ha, hz]
      exact List.mem_map.2 ⟨_, hmem.2 ⟨m, hm, .inr ⟨hthrough, hletter, rfl⟩⟩, rfl⟩
  case inside =>
    intro x hx
    obtain ⟨m, hm, hx | ⟨-, -, rfl⟩⟩ := hmem.1 hx
    · exact htext ▸ Mark.line_lt_of_through? hrs hx
    · have hcount := c.text.lineCount_eq
      show min m.position.line (c.text.lineCount - 1) < c.text.lineCount
      omega
  case kept => exact fun m hm x hx => hmem.2 ⟨m, hm, .inl hx⟩
  case restored =>
    intro m hm hnone hletter
    obtain ⟨line, hline, heq⟩ := c.pulledBack_eq m
    exact ⟨line, hline, heq ▸ hmem.2 ⟨m, hm, .inr ⟨hnone, hletter, rfl⟩⟩⟩
  case dropped =>
    intro m hm hnone hletter hset
    obtain ⟨x, hx, hxm⟩ := List.mem_map.1 hset
    obtain ⟨other, hother, hx⟩ := hmem.1 hx
    obtain rfl := h.eq_of_name hother hm ((hname hx).symm.trans hxm)
    simp [hnone, hletter] at hx

/-- The buffer that a batch leaves is that of its replacements, with the lost letter marks set again
if the configuration asks for it. -/
theorem afterBatch_eq (config : Config) (e : Encoding) (b : Buffer) (edits : List TextEdit) :
    b.afterBatch config e edits =
      let c := (b.replacements config e edits).foldl Buffer.amended { b with listed := true }
      if config.restoreMarks then c.repaired (b.marks.filter (·.isLocalLetter)) else c := by
  have hfixes : ((b.text.replacements e (applicationOrder edits)).foldl Buffer.amended
      { b with listed := true }).fixesEndOfLine = b.fixesEndOfLine := by
    rw [← edited_eq_foldl e { b with listed := true }, fixesEndOfLine_edited]
  simp only [afterBatch, replacements, edited_eq_foldl]
  unfold trimmed
  rw [hfixes, text_foldl_amended]
  grind

/-- The text that a batch leaves is that of its replacements. -/
theorem text_afterBatch_eq_foldl (config : Config) (e : Encoding) (b : Buffer)
    (edits : List TextEdit) :
    (b.afterBatch config e edits).text =
      (b.replacements config e edits).foldl Text.amended b.text := by
  rw [afterBatch_eq]
  dsimp only
  split
  · exact text_foldl_amended _ _
  · exact text_foldl_amended _ _

/-- A batch leaves the marks in order, -/
theorem ordered_afterBatch (h : b.marks.Ordered) (config : Config) (e : Encoding)
    (edits : List TextEdit) : (b.afterBatch config e edits).marks.Ordered := by
  have hordered := ordered_of_filterMap h
    (marks_foldl_amended { b with listed := true } (b.replacements config e edits))
  rw [afterBatch_eq]
  dsimp only
  split
  · exact hordered.foldl_set _
  · exact hordered

/-- and every mark that goes through its replacements, where they take it. -/
theorem mem_marks_afterBatch (h : b.marks.Ordered) {config : Config} {e : Encoding}
    {edits : List TextEdit} {m m' : Mark} (hm : m ∈ b.marks)
    (hthrough : m.through? b.text (b.replacements config e edits) = some m') :
    m' ∈ (b.afterBatch config e edits).marks := by
  have hmarks := marks_foldl_amended { b with listed := true } (b.replacements config e edits)
  rw [afterBatch_eq]
  dsimp only
  split
  · exact (mem_marks_repaired_iff h hmarks).2 ⟨m, hm, .inl hthrough⟩
  · rw [hmarks]
    exact List.mem_filterMap.2 ⟨m, hm, hthrough⟩

/-- No batch loses a letter mark. -/
theorem marksKept_afterBatch (h : b.marks.Ordered) {config : Config}
    (hconfig : config.restoreMarks = true) (e : Encoding) {edits : List TextEdit}
    (hedits : edits ≠ []) :
    b.MarksKept (b.afterBatch config e edits) (b.replacements config e edits) := by
  rw [afterBatch_eq]
  simp only [hconfig, if_true]
  exact marksKept_repaired h (replacements_ne_nil config e b hedits) (text_foldl_amended _ _)
    (marks_foldl_amended _ _)

end Buffer

end WorkspaceEditing
