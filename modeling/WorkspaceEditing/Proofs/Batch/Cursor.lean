import WorkspaceEditing.Proofs.Batch.Splice
import WorkspaceEditing.Proofs.Text.Cut

/-!
# The cursor stays with its text

A cursor that no edit of a valid batch touches cuts the text in two. The edits that end in front of
it change the first part, the others change the second, and the cursor comes to stand between what
the parts have become.

## Main definitions

* `Protocol.TextEdit.EndsBefore`, `Protocol.TextEdit.StartsFrom` — the two kinds of edits.
* `Text.growths` — the bytes by which each of several edits lengthens a text.

## Main results

* `BytePosition.shifted_add` — a position behind a replaced range moves with the text there.
* `Text.exists_carried` — the two parts of the text after the edits, and the cursor between them.
-/

namespace WorkspaceEditing

open Protocol

/-- The buffer position of a server's place in a text. -/
def Protocol.Position.inText (p : Position) (e : Encoding) (t : Text) : BytePosition :=
  p.decode (t.line? p.line) e

namespace Protocol.TextEdit

/-- The edit, its range in order, ends in front of a position. -/
def EndsBefore (edit : TextEdit) (e : Encoding) (t : Text) (c : BytePosition) : Prop :=
  edit.normalized.range.stop.inText e t < c

/-- The edit, its range in order, starts at a position or behind it. -/
def StartsFrom (edit : TextEdit) (e : Encoding) (t : Text) (c : BytePosition) : Prop :=
  c ≤ edit.normalized.range.start.inText e t

instance (edit : TextEdit) (e : Encoding) (t : Text) (c : BytePosition) :
    Decidable (edit.EndsBefore e t c) :=
  inferInstanceAs (Decidable (edit.normalized.range.stop.inText e t < c))

instance (edit : TextEdit) (e : Encoding) (t : Text) (c : BytePosition) :
    Decidable (edit.StartsFrom e t c) :=
  inferInstanceAs (Decidable (c ≤ edit.normalized.range.start.inText e t))

end Protocol.TextEdit

/-- The bytes by which edits lengthen a text, each the text that the one before has left. -/
def Text.growths (e : Encoding) : Text → List TextEdit → List Int
  | _, [] => []
  | t, edit :: rest =>
    let amended := t.amended (edit.replacementIn e t)
    ((amended.byteLength : Int) - t.byteLength) :: growths e amended rest

/-! ## Shifting a position -/

namespace BytePosition

theorem add_ne_origin {d : BytePosition} (h : d ≠ origin) (p : BytePosition) : p + d ≠ origin := by
  intro heq
  have hle : origin ≤ p := by
    have := le_add origin p
    rwa [origin_add] at this
  have hlt := lt_of_le_of_lt hle (lt_add h p)
  rw [heq] at hlt
  grind

/-- A position up to the end of the range stays. -/
theorem shifted_of_le {p : BytePosition} {r : ByteRange} (h : p ≤ r.stop) (newLines : List Text) :
    p.shifted r newLines = p := if_pos h

/-- A range touches one line more than there are line feeds in its text. -/
theorem lineSpan_append (s m : Text) :
    ByteRange.lineSpan ⟨s.extent, (s ++ m).extent⟩ = m.extent.line + 1 := by
  have hle : s.extent ≤ (s ++ m).extent := Text.extent_le_append s m
  rw [ByteRange.lineSpan, ByteRange.normalized_of_le hle]
  simp only [Text.extent_append, line_add]
  omega

/-- A position behind a replaced range moves with the text there. -/
theorem shifted_add {d : BytePosition} (h : d ≠ origin) (s m new : Text) :
    ((s ++ m).extent + d).shifted ⟨s.extent, (s ++ m).extent⟩ new.lines =
      (s ++ new).extent + d := by
  have hbehind : ¬ (s ++ m).extent + d ≤ (s ++ m).extent := not_le.2 (lt_add h _)
  have hlength : new.lines.length = new.extent.line + 1 := Text.lineCount_eq_extent new
  have hlast : (new.lines.getLastD []).byteLength = new.extent.column := by
    rw [Text.getLastD_lines]
    rfl
  unfold shifted
  rw [if_neg hbehind]
  dsimp only
  rw [lineSpan_append, hlength, hlast]
  have hline : ((s ++ m).extent + d).line + (new.extent.line + 1) - (m.extent.line + 1) =
      ((s ++ new).extent + d).line := by
    simp only [Text.extent_append, line_add]
    omega
  rw [hline]
  by_cases hd : d.line = 0
  · have hsame : ((s ++ m).extent + d).line = (s ++ m).extent.line := by rw [line_add, hd]; rfl
    rw [if_pos hsame]
    have hbefore : ((s ++ m).extent + d).column = (s ++ m).extent.column + d.column := by
      rw [column_add, if_pos hd]
    have hafter : ((s ++ new).extent + d).column = (s ++ new).extent.column + d.column := by
      rw [column_add, if_pos hd]
    have hnew : (s ++ new).extent.column = if new.extent.line = 0
        then s.extent.column + new.extent.column else new.extent.column := by
      rw [Text.extent_append, column_add]
    ext
    · rfl
    · rw [hbefore, hafter, hnew]
      by_cases hn : new.extent.line = 0
      · rw [if_pos hn, if_pos (by omega)]
        dsimp only
        omega
      · rw [if_neg hn, if_neg (by omega)]
        dsimp only
        omega
  · have hother : ((s ++ m).extent + d).line ≠ (s ++ m).extent.line := by
      rw [line_add]
      omega
    rw [if_neg hother]
    ext
    · rfl
    · simp only [column_add, hd, if_false]

end BytePosition

namespace Text

variable {e : Encoding} {t : Text} {edit : TextEdit} {edits rest : List TextEdit}

/-! ## Carrying the cursor along -/

theorem edited_append (t : Text) (edits edits' : List TextEdit) :
    t.edited e (edits ++ edits') = (t.edited e edits).edited e edits' := List.foldl_append

theorem carried_append (t : Text) (edits edits' : List TextEdit) (c : BytePosition) :
    t.carried e (edits ++ edits') c = (t.edited e edits).carried e edits' (t.carried e edits c) := by
  induction edits generalizing t c with
  | nil => rfl
  | cons edit rest ih => exact ih _ _

/-- Where an edit leaves the cursor, in a text that is as it was up to where the edit ends. -/
theorem carried_upTo (h : Descends e t (edit :: rest)) (out : Text) (c : BytePosition) :
    edit.carried e (t.upTo e edit.range.stop ++ out) c =
      c.shifted ⟨(t.upTo e edit.range.start).extent, (t.upTo e edit.range.stop).extent⟩
        (inserted edit.newText out).lines := by
  have hrange := upTo_range h
  have hcount : ¬ lineCount (t.upTo e edit.range.stop ++ out) ≤ edit.range.start.line := by
    rw [← line_upTo h.start, ← hrange, lineCount_eq_extent, List.append_assoc, extent_append,
      BytePosition.line_add]
    omega
  rw [TextEdit.carried, if_neg hcount, replacementIn_upTo h]

/-- Edits that start at the cursor or behind it leave alone what stands in front of it, and the
cursor itself. -/
theorem edited_of_startsFrom (h : Descends e t edits) {s : Text} {c : BytePosition}
    (hs : ∀ x ∈ edits, s <+: t.upTo e x.range.start ∧ c ≤ (t.upTo e x.range.start).extent)
    {out : Text} (hout : s <+: t.upTo e (nextStop edits) ++ out) :
    s <+: edited e (t.upTo e (nextStop edits) ++ out) edits ∧
      carried e (t.upTo e (nextStop edits) ++ out) edits c = c := by
  induction edits generalizing out with
  | nil => exact ⟨hout, rfl⟩
  | cons edit rest ih =>
    obtain ⟨hinitial, hle⟩ := hs edit List.mem_cons_self
    have hbefore := upTo_gap h
    have hrange := upTo_range h
    have hstay : edit.carried e (t.upTo e edit.range.stop ++ out) c = c := by
      rw [carried_upTo h]
      refine BytePosition.shifted_of_le (BytePosition.le_trans hle ?_) _
      rw [← hrange]
      exact extent_le_append _ _
    rw [edited, carried, nextStop, List.foldl_cons, amended_upTo h, hstay]
    refine ih h.tail (fun x hx => hs x (List.mem_cons_of_mem _ hx)) ?_
    rw [← List.append_assoc, hbefore]
    exact hinitial.trans (List.prefix_append _ _)

/-- What an edit puts in depends on the first character behind it only. -/
theorem inserted_congr {out out' : Text} (h : out.head? = out'.head?) (newText : Text) :
    inserted newText out = inserted newText out' := by
  have hnil : out = [] ↔ out' = [] := by rw [← List.head?_eq_none_iff, h, List.head?_eq_none_iff]
  unfold inserted
  simp only [h, hnil]

/-- Edits that end in front of the cursor put some text in front of what stands behind them, and the
cursor moves along. What they put there depends on the first character behind them only. -/
theorem exists_prepended (h : Descends e t edits) (head : Option Char) :
    ∃ p, ∀ out, edits = [] ∨ out.head? = head →
      prepended e t edits out = p ++ out ∧
        ∀ d, edits = [] ∨ d ≠ .origin →
          carried e (t.upTo e (nextStop edits) ++ out) edits ((t.upTo e (nextStop edits)).extent + d) =
            p.extent + d := by
  induction edits generalizing head with
  | nil =>
    refine ⟨[], fun out _ => ⟨rfl, ?_⟩⟩
    intro d _
    rw [nextStop, upTo_start]
    rfl
  | cons edit rest ih =>
    have hbefore := upTo_gap h
    have hrange := upTo_range h
    -- what comes to stand in front of the text behind the edit, down to the end of the next one
    let new := inserted edit.newText head.toList
    let gap := between e t (nextStop rest) edit.range.start
    obtain ⟨p, hp⟩ := ih h.tail ((gap ++ new).head?.or head)
    refine ⟨p ++ (gap ++ new), ?_⟩
    intro out hout
    have hhead : out.head? = head := hout.resolve_left (List.cons_ne_nil _ _)
    have hnew : inserted edit.newText out = new :=
      inserted_congr (hhead.trans (by cases head <;> rfl)) edit.newText
    obtain ⟨hprepended, hcarried⟩ := hp (gap ++ (new ++ out))
      (.inr (by rw [← List.append_assoc, List.head?_append, hhead]))
    refine ⟨?_, ?_⟩
    · rw [prepended, hnew, hprepended]
      simp only [List.append_assoc]
    · intro d hd
      have hd : d ≠ .origin := hd.resolve_left (List.cons_ne_nil _ _)
      have hmoved : edit.carried e (t.upTo e edit.range.stop ++ out)
          ((t.upTo e edit.range.stop).extent + d) =
          (t.upTo e (nextStop rest)).extent + ((gap ++ new).extent + d) := by
        rw [carried_upTo h, hnew]
        have := BytePosition.shifted_add hd (t.upTo e edit.range.start)
          (between e t edit.range.start edit.range.stop) new
        rw [hrange] at this
        rw [this, ← hbefore, List.append_assoc, extent_append, BytePosition.add_assoc]
      rw [carried, nextStop, amended_upTo h, hnew, hmoved,
        hcarried _ (.inr (BytePosition.add_ne_origin hd _)), extent_append p,
        BytePosition.add_assoc]

/-! ## The two parts -/

/-- All edits together lengthen a text by what they lengthen it one after the other. -/
theorem sum_growths (t : Text) (edits : List TextEdit) :
    (growths e t edits).sum = ((t.edited e edits).byteLength : Int) - t.byteLength := by
  induction edits generalizing t with
  | nil => simp [growths, edited]
  | cons edit rest ih =>
    rw [growths, List.sum_cons, ih, edited, edited, List.foldl_cons]
    omega

/-- An exact place is read as the end of the text in front of it. -/
theorem inText_eq {p : Position} (h : p.IsExact e t) : p.inText e t = (t.upTo e p).extent := by
  obtain ⟨s, x, rfl, rfl⟩ := Position.isExact_iff.1 h
  rw [upTo_place, Position.inText, Position.decode_place]

/-- In front of a later place stands no less. -/
theorem upTo_extent_le {p q : Position} (hp : p.IsExact e t) (hq : q.IsExact e t) (h : p ≤ q) :
    (t.upTo e p).extent ≤ (t.upTo e q).extent := by
  rw [← upTo_append_between hp hq h]
  exact extent_le_append _ _

/-- A batch that is valid for a text is valid for a beginning of it in which its ranges lie. -/
theorem validBatch_of_prefix (h : ValidBatch e t edits) {s : Text}
    (hs : ∀ edit ∈ edits, t.upTo e edit.normalized.range.stop <+: s) : ValidBatch e s edits where
  exact edit hedit := by
    have hexact {p : Position} (hp : p.IsExact e t) (hinitial : t.upTo e p <+: s) :
        p.IsExact e s := by
      obtain ⟨y, hy⟩ := hinitial
      exact Position.isExact_iff.2 ⟨t.upTo e p, y, hy.symm, place_upTo hp⟩
    obtain ⟨hstart, hstop⟩ := h.isExact (mem_applicationOrder.2 ⟨edit, hedit, rfl⟩)
    have hstartPrefix : t.upTo e edit.normalized.range.start <+: s := by
      refine List.IsPrefix.trans ?_ (hs edit hedit)
      rw [← upTo_append_between hstart hstop edit.start_le_stop]
      exact List.prefix_append _ _
    rcases edit.range.normalized_cases with heq | heq
    · have := And.intro (hexact hstart hstartPrefix) (hexact hstop (hs edit hedit))
      simpa only [TextEdit.normalized, heq] using this
    · have := And.intro (hexact hstop (hs edit hedit)) (hexact hstart hstartPrefix)
      simpa only [TextEdit.normalized, heq] using this
  apart := h.apart
  insertionsFirst := h.insertionsFirst

/-- The edits that do not end in front of the cursor are applied before those that do. -/
theorem applicationOrder_eq_append (h : ValidBatch e t edits) (c : BytePosition) :
    applicationOrder edits =
      applicationOrder (edits.filter fun edit => !decide (edit.EndsBefore e t c)) ++
        applicationOrder (edits.filter fun edit => edit.EndsBefore e t c) := by
  have hdescends := h.descends
  have hpairwise : (applicationOrder edits).Pairwise fun a b =>
      decide (a.range.stop.inText e t < c) = true → decide (b.range.stop.inText e t < c) = true := by
    apply hdescends.apart.imp_of_mem
    intro a b ha hb hab hlt
    rw [decide_eq_true_iff] at hlt ⊢
    have hle : b.range.stop.inText e t ≤ a.range.stop.inText e t := by
      rw [inText_eq (hdescends.exact a ha).2, inText_eq (hdescends.exact b hb).2]
      exact upTo_extent_le (hdescends.exact b hb).2 (hdescends.exact a ha).2
        (Position.le_trans hab (hdescends.ordered a ha))
    exact BytePosition.lt_of_le_of_lt hle hlt
  have hbefore := applicationOrder_filter (fun x => decide (x.range.stop.inText e t < c)) edits
  have hothers := applicationOrder_filter (fun x => !decide (x.range.stop.inText e t < c)) edits
  have hsplit := eq_filter_append_filter _ hpairwise
  rw [← hbefore, ← hothers] at hsplit
  exact hsplit

/-- The edits behind the cursor leave it and the text in front of it alone. -/
theorem exists_of_others (h : Descends e t edits) {c : BytePosition} {s x : Text} {k : Nat}
    (hcut : t.CutAt c s k x) (hfrom : ∀ y ∈ edits, c ≤ (t.upTo e y.range.start).extent) :
    ∃ x', (k = 0 ∨ x'.head? = x.head?) ∧ Inside k x' ∧ t.edited e edits = s ++ x' ∧
      t.carried e edits c = c := by
  obtain ⟨m, hm, hinside, hcommon⟩ := hcut.exists_common
  have hafter := upTo_append_after e t (nextStop edits)
  have hinitial : s ++ m <+: t := by
    cases edits with
    | nil =>
      refine hcommon t (List.prefix_refl t) ?_
      obtain ⟨line, hline, hc⟩ := hcut.has
      obtain ⟨b, a, rfl, hb, hl, -⟩ := exists_of_line? hline
      have hle : c ≤ (b ++ line).extent := by
        rw [extent_append, hb, extent_of_not_mem hl, BytePosition.le_def]
        simp [BytePosition.column_add, hc]
      exact BytePosition.le_trans hle (extent_le_append _ _)
    | cons edit rest =>
      exact (hcommon _ (upTo_isPrefix e t _) (hfrom edit List.mem_cons_self)).trans
        (upTo_isPrefix e t _)
  have hout : s ++ m <+: t.upTo e (nextStop edits) ++ after e t (nextStop edits) := by rwa [hafter]
  obtain ⟨⟨y, hy⟩, hcarried⟩ := edited_of_startsFrom h
    (fun y hy => ⟨hcommon _ (upTo_isPrefix e t _) (hfrom y hy), hfrom y hy⟩) hout
  rw [hafter] at hy hcarried
  refine ⟨m ++ y, ?_, hinside.append y, by rw [← hy, List.append_assoc], hcarried⟩
  rcases hm with hk | ⟨hne, hhead⟩
  · exact .inl hk
  · right
    rw [← hhead]
    exact List.head?_append_of_ne_nil m hne

/-- The edits in front of the cursor make something else of the text there, whatever stands behind
it, as long as the cursor is inside of the same character, and the cursor comes to stand behind what
they have made. -/
theorem exists_of_before (h : Descends e t edits) {c : BytePosition} {s x : Text} {k : Nat}
    (hcut : t.CutAt c s k x) (hbefore : ∀ y ∈ edits, (t.upTo e y.range.stop).extent < c) :
    ∃ s', ∀ z : Text, k = 0 ∨ z.head? = x.head? →
      edited e (s ++ z) edits = s' ++ z ∧ carried e (s ++ z) edits c = s'.extent + ⟨0, k⟩ := by
  -- the first edit that is applied ends in front of the cursor
  obtain ⟨g, hg, hlt⟩ : ∃ g, s = t.upTo e (nextStop edits) ++ g ∧
      (edits = [] ∨ (t.upTo e (nextStop edits)).extent < c) := by
    cases edits with
    | nil => exact ⟨s, by simp [nextStop], .inl rfl⟩
    | cons edit rest =>
      have hlt := hbefore edit List.mem_cons_self
      obtain ⟨g, hg⟩ := hcut.prefix_of_lt (upTo_isPrefix e t edit.range.stop) hlt
      exact ⟨g, hg.symm, .inr hlt⟩
  have hc : c = (t.upTo e (nextStop edits)).extent + (g.extent + ⟨0, k⟩) := by
    rw [hcut.position_eq, hg, extent_append, BytePosition.add_assoc]
  have hd : edits = [] ∨ g.extent + ⟨0, k⟩ ≠ .origin := by
    apply hlt.imp_right
    intro hlt hd
    rw [hc, hd, BytePosition.add_origin] at hlt
    grind
  obtain ⟨p, hp⟩ := exists_prepended h (g ++ x).head?
  refine ⟨p ++ g, ?_⟩
  intro z hz
  have hhead : edits = [] ∨ (g ++ z).head? = (g ++ x).head? := by
    apply hd.imp_right
    intro hd
    by_cases hnil : g = []
    · subst hnil
      rcases hz with rfl | hz
      · exact absurd rfl hd
      · exact hz
    · rw [List.head?_append_of_ne_nil g hnil, List.head?_append_of_ne_nil g hnil]
  obtain ⟨hprepended, hcarried⟩ := hp (g ++ z) hhead
  rw [hg, List.append_assoc]
  refine ⟨?_, ?_⟩
  · rw [edited_eq_prepended h, hprepended, List.append_assoc]
  · rw [hc, hcarried _ hd, extent_append p g, BytePosition.add_assoc]

/-- The edits that end in front of the cursor still do once their ranges are in order. -/
theorem extent_lt_of_mem_before (h : ValidBatch e t edits) {c : BytePosition} {x : TextEdit}
    (hx : x ∈ applicationOrder (edits.filter fun edit => edit.EndsBefore e t c)) :
    (t.upTo e x.range.stop).extent < c := by
  have hbefore := h.filter fun edit => edit.EndsBefore e t c
  rw [← inText_eq (hbefore.isExact hx).2]
  obtain ⟨edit, hedit, rfl⟩ := mem_applicationOrder.1 hx
  rw [List.mem_filter] at hedit
  exact of_decide_eq_true hedit.2

/-- The others start at the cursor or behind it. -/
theorem le_extent_of_mem_others (h : ValidBatch e t edits) {c : BytePosition}
    (hsides : ∀ edit ∈ edits, edit.EndsBefore e t c ∨ edit.StartsFrom e t c) {x : TextEdit}
    (hx : x ∈ applicationOrder (edits.filter fun edit => !decide (edit.EndsBefore e t c))) :
    c ≤ (t.upTo e x.range.start).extent := by
  have hothers := h.filter fun edit => !decide (edit.EndsBefore e t c)
  rw [← inText_eq (hothers.isExact hx).1]
  obtain ⟨edit, hedit, rfl⟩ := mem_applicationOrder.1 hx
  rw [List.mem_filter] at hedit
  exact (hsides edit hedit.1).resolve_left (by simpa using hedit.2)

/-- A valid batch, none of whose edits touches the cursor, makes one thing of the text in front of
the cursor and another of the text behind it, and the cursor comes to stand between the two. -/
theorem exists_carried (h : ValidBatch e t edits) {c : BytePosition} {s x : Text} {k : Nat}
    (hcut : t.CutAt c s k x)
    (hsides : ∀ edit ∈ edits, edit.EndsBefore e t c ∨ edit.StartsFrom e t c) :
    ∃ s' x',
      t.spliced e (edits.filter fun edit => edit.EndsBefore e t c) = s' ++ x ∧
      (k = 0 → s.spliced e (edits.filter fun edit => edit.EndsBefore e t c) = s') ∧
      t.spliced e (edits.filter fun edit => !decide (edit.EndsBefore e t c)) = s ++ x' ∧
      Inside k x' ∧
      t.edited e (applicationOrder edits) = s' ++ x' ∧
      t.carried e (applicationOrder edits) c = s'.extent + ⟨0, k⟩ := by
  have hbefore := h.filter fun edit => edit.EndsBefore e t c
  have hothers := h.filter fun edit => !decide (edit.EndsBefore e t c)
  have horder := applicationOrder_eq_append h c
  obtain ⟨x', hhead, hinside, hx', hstay⟩ :=
    exists_of_others hothers.descends hcut fun _ hy => le_extent_of_mem_others h hsides hy
  obtain ⟨s', hs'⟩ :=
    exists_of_before hbefore.descends hcut fun _ hy => extent_lt_of_mem_before h hy
  refine ⟨s', x', ?_, ?_, ?_, hinside, ?_, ?_⟩
  · rw [← edited_eq_spliced hbefore]
    have := (hs' x (.inr rfl)).1
    rwa [← hcut.text_eq] at this
  · intro hk
    have hvalid : ValidBatch e s (edits.filter fun edit => edit.EndsBefore e t c) := by
      apply validBatch_of_prefix hbefore
      intro edit hedit
      have hmem := mem_applicationOrder.2 ⟨edit, hedit, rfl⟩
      exact hcut.prefix_of_lt (upTo_isPrefix e t _) (extent_lt_of_mem_before h hmem)
    rw [← edited_eq_spliced hvalid]
    simpa using (hs' [] (.inl hk)).1
  · rw [← edited_eq_spliced hothers, hx']
  · rw [horder, edited_append, hx']
    exact (hs' x' hhead).1
  · rw [horder, carried_append, hx', hstay]
    exact (hs' x' hhead).2

end Text

end WorkspaceEditing
