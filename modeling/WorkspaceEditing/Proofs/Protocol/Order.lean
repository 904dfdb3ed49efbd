import WorkspaceEditing.Proofs.Text.Exact
import WorkspaceEditing.Protocol.TextEdit

/-!
# Valid batches and the order of their edits

A batch is applied in the order of a stable sort: by descending start, and at one start from the
last edit of the batch to the first. In a batch that is valid for a text the edits then lie one in
front of the other, each ending where the one applied before it starts, or earlier.

## Main definitions

* `Protocol.ValidBatch` — the batches that a server may send for a text.
* `Protocol.inDescent` — the edits of a batch, sorted.
* `Protocol.Descends` — edits that lie one in front of the other.

## Main results

* `Protocol.applicationOrder_eq` — the order of application is that of the stable sort.
* `Protocol.ValidBatch.descends` — the edits of a valid batch are applied one in front of the other.
* `Protocol.applicationOrder_filter` — some of the edits are applied in the order they have among
  all.
-/

namespace WorkspaceEditing

namespace Protocol

/-- The edit puts text in a place and takes none away. -/
def TextEdit.IsInsertion (edit : TextEdit) : Prop := edit.range.start = edit.range.stop

/-- The batches that a server may send for a text: all places exist, of any two edits one ends
where the other starts or before, and an insertion at the start of another edit's range comes
before that edit in the batch. Ranges are meant with their ends in order. -/
structure ValidBatch (e : Encoding) (t : Text) (edits : List TextEdit) : Prop where
  exact : ∀ edit ∈ edits, edit.range.start.IsExact e t ∧ edit.range.stop.IsExact e t
  apart : edits.Pairwise fun a b =>
    a.normalized.range.stop ≤ b.normalized.range.start ∨
      b.normalized.range.stop ≤ a.normalized.range.start
  insertionsFirst : edits.Pairwise fun a b =>
    a.normalized.range.start = b.normalized.range.start →
      b.normalized.IsInsertion → a.normalized.IsInsertion

instance (edit : TextEdit) : Decidable edit.IsInsertion :=
  inferInstanceAs (Decidable (edit.range.start = edit.range.stop))

theorem validBatch_iff {e : Encoding} {t : Text} {edits : List TextEdit} :
    ValidBatch e t edits ↔
      (∀ edit ∈ edits, edit.range.start.IsExact e t ∧ edit.range.stop.IsExact e t) ∧
      (edits.Pairwise fun a b =>
        a.normalized.range.stop ≤ b.normalized.range.start ∨
          b.normalized.range.stop ≤ a.normalized.range.start) ∧
      edits.Pairwise fun a b =>
        a.normalized.range.start = b.normalized.range.start →
          b.normalized.IsInsertion → a.normalized.IsInsertion :=
  ⟨fun h => ⟨h.exact, h.apart, h.insertionsFirst⟩, fun h => ⟨h.1, h.2.1, h.2.2⟩⟩

instance (e : Encoding) (t : Text) (edits : List TextEdit) : Decidable (ValidBatch e t edits) :=
  decidable_of_iff _ validBatch_iff.symm

/-- The edits of a batch, their ranges in order, by descending start. The sort is stable, and the
last of the batch comes first, so edits at one start come in reverse. -/
def inDescent (edits : List TextEdit) : List TextEdit :=
  (edits.map TextEdit.normalized).reverse.insertionSort fun a b => b.range.start ≤ a.range.start

/-! ## The sort -/

theorem insertInOrder_eq (edit : TextEdit) (edits : List TextEdit) :
    insertInOrder edit edits =
      edits.orderedInsert (fun a b => b.range.start ≤ a.range.start) edit := by
  induction edits with
  | nil => rfl
  | cons first rest ih =>
    rw [List.orderedInsert_cons, insertInOrder, ih]
    by_cases h : first.range.start ≤ edit.range.start
    · have hbefore : edit.range.start.before first.range.start = false := h
      rw [if_pos h, hbefore]
      rfl
    · have hbefore : edit.range.start.before first.range.start = true := Bool.of_not_eq_false h
      rw [if_neg h, if_pos hbefore]

/-- Edits are applied by descending start, and at one start from the last to the first. -/
theorem applicationOrder_eq (edits : List TextEdit) : applicationOrder edits = inDescent edits := by
  rw [inDescent, List.insertionSort, List.foldr_reverse, List.foldl_map, applicationOrder]
  congr 1
  funext ordered edit
  exact insertInOrder_eq edit.normalized ordered

theorem applicationOrder_concat (edits : List TextEdit) (edit : TextEdit) :
    applicationOrder (edits ++ [edit]) = insertInOrder edit.normalized (applicationOrder edits) := by
  simp [applicationOrder]

theorem mem_insertInOrder {edit x : TextEdit} {edits : List TextEdit} :
    x ∈ insertInOrder edit edits ↔ x = edit ∨ x ∈ edits := by
  rw [(perm_insertInOrder edit edits).mem_iff, List.mem_cons]

theorem perm_applicationOrder (edits : List TextEdit) :
    (applicationOrder edits).Perm (edits.map TextEdit.normalized) := by
  rw [applicationOrder_eq]
  exact (List.perm_insertionSort _ _).trans (List.reverse_perm _)

theorem mem_applicationOrder {x : TextEdit} {edits : List TextEdit} :
    x ∈ applicationOrder edits ↔ ∃ edit ∈ edits, edit.normalized = x := by
  rw [applicationOrder_eq, inDescent, List.mem_insertionSort, List.mem_reverse, List.mem_map]

/-- The edits come by descending start. -/
theorem pairwise_start_applicationOrder (edits : List TextEdit) :
    (applicationOrder edits).Pairwise fun a b => b.range.start ≤ a.range.start := by
  rw [applicationOrder_eq]
  have : Std.Total fun a b : TextEdit => b.range.start ≤ a.range.start :=
    ⟨fun a b => Position.le_total b.range.start a.range.start⟩
  have : IsTrans TextEdit fun a b => b.range.start ≤ a.range.start :=
    ⟨fun _ _ _ h h' => Position.le_trans h' h⟩
  exact List.pairwise_insertionSort _ _

/-! ## Ranges in order -/

theorem TextEdit.start_le_stop (edit : TextEdit) :
    edit.normalized.range.start ≤ edit.normalized.range.stop := edit.range.not_stop_before_start

theorem start_le_stop_of_mem {x : TextEdit} {edits : List TextEdit}
    (h : x ∈ applicationOrder edits) : x.range.start ≤ x.range.stop := by
  obtain ⟨edit, -, rfl⟩ := mem_applicationOrder.1 h
  exact edit.start_le_stop

/-- Putting the ends of a range in order makes no new ones. -/
theorem Range.normalized_cases (r : Range) :
    r.normalized = r ∨ r.normalized = ⟨r.stop, r.start⟩ := by
  unfold Range.normalized
  split
  · exact .inr rfl
  · exact .inl rfl

theorem Range.isExact_normalized {e : Encoding} {t : Text} {r : Range}
    (hstart : r.start.IsExact e t) (hstop : r.stop.IsExact e t) :
    r.normalized.start.IsExact e t ∧ r.normalized.stop.IsExact e t := by
  rcases r.normalized_cases with heq | heq
  · rw [heq]
    exact ⟨hstart, hstop⟩
  · rw [heq]
    exact ⟨hstop, hstart⟩

theorem ValidBatch.isExact {e : Encoding} {t : Text} {edits : List TextEdit}
    (h : ValidBatch e t edits) {x : TextEdit} (hx : x ∈ applicationOrder edits) :
    x.range.start.IsExact e t ∧ x.range.stop.IsExact e t := by
  obtain ⟨edit, hedit, rfl⟩ := mem_applicationOrder.1 hx
  obtain ⟨hstart, hstop⟩ := h.exact edit hedit
  exact Range.isExact_normalized hstart hstop

/-! ## One in front of the other -/

/-- Of two edits that lie apart, the one that starts earlier ends no later than the other starts. -/
theorem TextEdit.stop_le_start_of_not_le {edit first : TextEdit}
    (hfirst : first.range.start ≤ first.range.stop)
    (happart : first.range.stop ≤ edit.range.start ∨ edit.range.stop ≤ first.range.start)
    (hbefore : ¬ first.range.start ≤ edit.range.start) : edit.range.stop ≤ first.range.start := by
  rcases happart with h | h
  · exact absurd (Position.le_trans hfirst h) hbefore
  · exact h

/-- If two edits that lie apart start at one place, an insertion ends no later than the other starts,
unless the other one is an insertion as well. -/
theorem TextEdit.stop_le_start_of_le {edit first : TextEdit}
    (hedit : edit.range.start ≤ edit.range.stop)
    (happart : first.range.stop ≤ edit.range.start ∨ edit.range.stop ≤ first.range.start)
    (hinsertion : first.range.start = edit.range.start → edit.IsInsertion → first.IsInsertion)
    (hle : first.range.start ≤ edit.range.start) : first.range.stop ≤ edit.range.start := by
  rcases happart with h | h
  · exact h
  · -- both start, and the edit ends, at one place
    have hsame : first.range.start = edit.range.start :=
      Position.le_antisymm hle (Position.le_trans hedit h)
    have hpoint : edit.IsInsertion := Position.le_antisymm hedit (hsame ▸ h)
    have hfirst : first.range.start = first.range.stop := hinsertion hsame hpoint
    rw [← hfirst]
    exact hle

/-- An edit that is put in its place among edits which lie one in front of the other: no other
overlaps it, and those at its start are insertions if it is one itself. -/
theorem pairwise_insertInOrder {edit : TextEdit} {ordered : List TextEdit}
    (hordered : ordered.Pairwise fun a b => b.range.stop ≤ a.range.start)
    (hstart : ∀ a ∈ ordered, a.range.start ≤ a.range.stop)
    (hedit : edit.range.start ≤ edit.range.stop)
    (happart : ∀ a ∈ ordered, a.range.stop ≤ edit.range.start ∨ edit.range.stop ≤ a.range.start)
    (hinsertion : ∀ a ∈ ordered, a.range.start = edit.range.start →
      edit.IsInsertion → a.IsInsertion) :
    (insertInOrder edit ordered).Pairwise fun a b => b.range.stop ≤ a.range.start := by
  induction ordered with
  | nil => simp [insertInOrder]
  | cons first rest ih =>
    obtain ⟨hfirst, hrest⟩ := List.pairwise_cons.1 hordered
    have hlast := hstart first List.mem_cons_self
    rw [insertInOrder]
    by_cases hbefore : edit.range.start.before first.range.start = true
    · rw [if_pos hbefore]
      refine List.pairwise_cons.2 ⟨?_, ?_⟩
      · intro x hx
        rcases mem_insertInOrder.1 hx with rfl | hx
        · apply TextEdit.stop_le_start_of_not_le hlast (happart first List.mem_cons_self)
          intro hle
          rw [show x.range.start.before first.range.start = false from hle] at hbefore
          exact Bool.false_ne_true hbefore
        · exact hfirst x hx
      · exact ih hrest (fun a ha => hstart a (List.mem_cons_of_mem _ ha))
          (fun a ha => happart a (List.mem_cons_of_mem _ ha))
          (fun a ha => hinsertion a (List.mem_cons_of_mem _ ha))
    · have hle : first.range.start ≤ edit.range.start := Bool.of_not_eq_true hbefore
      rw [if_neg hbefore]
      refine List.pairwise_cons.2 ⟨?_, hordered⟩
      intro x hx
      rcases List.mem_cons.1 hx with rfl | hx
      · exact TextEdit.stop_le_start_of_le hedit (happart x List.mem_cons_self)
          (hinsertion x List.mem_cons_self) hle
      · exact Position.le_trans (hfirst x hx) hle

/-- Edits that lie apart, insertions in front of what starts where they do, are applied one in front
of the other. -/
theorem pairwise_applicationOrder_of_apart {edits : List TextEdit}
    (happart : edits.Pairwise fun a b =>
      a.normalized.range.stop ≤ b.normalized.range.start ∨
        b.normalized.range.stop ≤ a.normalized.range.start)
    (hinsertion : edits.Pairwise fun a b =>
      a.normalized.range.start = b.normalized.range.start →
        b.normalized.IsInsertion → a.normalized.IsInsertion) :
    (applicationOrder edits).Pairwise fun a b => b.range.stop ≤ a.range.start := by
  induction edits using List.reverseRecOn with
  | nil => exact .nil
  | append_singleton edits edit ih =>
    rw [List.pairwise_append] at happart hinsertion
    rw [applicationOrder_concat]
    refine pairwise_insertInOrder (ih happart.1 hinsertion.1)
      (fun a ha => start_le_stop_of_mem ha) edit.start_le_stop ?_ ?_
    · intro a ha
      obtain ⟨raw, hraw, rfl⟩ := mem_applicationOrder.1 ha
      exact happart.2.2 raw hraw edit (List.mem_singleton_self edit)
    · intro a ha
      obtain ⟨raw, hraw, rfl⟩ := mem_applicationOrder.1 ha
      exact hinsertion.2.2 raw hraw edit (List.mem_singleton_self edit)

/-- The edits of a valid batch are applied one in front of the other. -/
theorem pairwise_applicationOrder {e : Encoding} {t : Text} {edits : List TextEdit}
    (h : ValidBatch e t edits) :
    (applicationOrder edits).Pairwise fun a b => b.range.stop ≤ a.range.start :=
  pairwise_applicationOrder_of_apart h.apart h.insertionsFirst

/-- The edits of a list, their places exact and their ranges in order, lie one in front of the
other. -/
structure Descends (e : Encoding) (t : Text) (edits : List TextEdit) : Prop where
  exact : ∀ x ∈ edits, x.range.start.IsExact e t ∧ x.range.stop.IsExact e t
  ordered : ∀ x ∈ edits, x.range.start ≤ x.range.stop
  apart : edits.Pairwise fun a b => b.range.stop ≤ a.range.start

/-- Where the first of these edits ends, or the start of the text. -/
def nextStop : List TextEdit → Position
  | [] => ⟨0, 0⟩
  | edit :: _ => edit.range.stop

theorem ValidBatch.descends {e : Encoding} {t : Text} {edits : List TextEdit}
    (h : ValidBatch e t edits) : Descends e t (applicationOrder edits) where
  exact _ hx := h.isExact hx
  ordered _ hx := start_le_stop_of_mem hx
  apart := pairwise_applicationOrder h

theorem isExact_start (e : Encoding) (t : Text) : Position.IsExact e t ⟨0, 0⟩ :=
  Position.isExact_iff.2 ⟨[], t, rfl, rfl⟩

namespace Descends

variable {e : Encoding} {t : Text} {edit : TextEdit} {edits rest : List TextEdit}

theorem sublist (h : Descends e t edits) (hrest : rest.Sublist edits) : Descends e t rest where
  exact x hx := h.exact x (hrest.subset hx)
  ordered x hx := h.ordered x (hrest.subset hx)
  apart := h.apart.sublist hrest

theorem tail (h : Descends e t (edit :: rest)) : Descends e t rest :=
  h.sublist (List.sublist_cons_self edit rest)

theorem start (h : Descends e t (edit :: rest)) : edit.range.start.IsExact e t :=
  (h.exact edit List.mem_cons_self).1

theorem stop (h : Descends e t (edit :: rest)) : edit.range.stop.IsExact e t :=
  (h.exact edit List.mem_cons_self).2

theorem start_le_stop (h : Descends e t (edit :: rest)) : edit.range.start ≤ edit.range.stop :=
  h.ordered edit List.mem_cons_self

theorem nextStop_isExact (h : Descends e t edits) : (nextStop edits).IsExact e t := by
  cases edits with
  | nil => exact isExact_start e t
  | cons edit rest => exact h.stop

/-- The next edit ends in front of this one. -/
theorem nextStop_le (h : Descends e t (edit :: rest)) : nextStop rest ≤ edit.range.start := by
  cases rest with
  | nil => exact Position.le_iff.2 (by simp only [nextStop]; omega)
  | cons next others => exact (List.pairwise_cons.1 h.apart).1 next List.mem_cons_self

end Descends

/-! ## Some of the edits -/

theorem filter_insertInOrder {edit : TextEdit} {ordered : List TextEdit} (p : TextEdit → Bool)
    (h : ordered.Pairwise fun a b => b.range.start ≤ a.range.start) :
    (insertInOrder edit ordered).filter p =
      if p edit then insertInOrder edit (ordered.filter p) else ordered.filter p := by
  induction ordered with
  | nil => cases hp : p edit <;> simp [insertInOrder, hp]
  | cons first rest ih =>
    obtain ⟨hfirst, hrest⟩ := List.pairwise_cons.1 h
    by_cases hbefore : edit.range.start.before first.range.start = true
    · rw [insertInOrder, if_pos hbefore]
      cases hp : p first <;> cases hp' : p edit <;>
        simp [ih hrest, insertInOrder, hp, hp', hbefore]
    · rw [insertInOrder, if_neg hbefore, List.filter_cons]
      -- all of the edits, and so those that are left, start in front of the new one
      have hle : ∀ x ∈ (first :: rest).filter p, x.range.start ≤ edit.range.start := by
        have hfirst' : first.range.start ≤ edit.range.start := Bool.of_not_eq_true hbefore
        intro x hx
        rcases List.mem_cons.1 (List.mem_of_mem_filter hx) with rfl | hx
        · exact hfirst'
        · exact Position.le_trans (hfirst x hx) hfirst'
      cases hl : (first :: rest).filter p with
      | nil => rfl
      | cons x xs =>
        have hx : edit.range.start.before x.range.start = false := hle x (by simp [hl])
        simp [insertInOrder, hx]

/-- Some of the edits of a batch are applied in the order that they have among all of them. -/
theorem applicationOrder_filter (p : TextEdit → Bool) (edits : List TextEdit) :
    applicationOrder (edits.filter fun edit => p edit.normalized) =
      (applicationOrder edits).filter p := by
  induction edits using List.reverseRecOn with
  | nil => rfl
  | append_singleton edits edit ih =>
    rw [applicationOrder_concat, filter_insertInOrder p (pairwise_start_applicationOrder edits), ← ih,
      List.filter_append]
    cases hp : p edit.normalized with
    | false => simp [hp]
    | true => simp [hp, applicationOrder_concat]

/-- Some of the edits of a valid batch are a valid batch. -/
theorem ValidBatch.filter {e : Encoding} {t : Text} {edits : List TextEdit}
    (h : ValidBatch e t edits) (p : TextEdit → Bool) : ValidBatch e t (edits.filter p) where
  exact edit hedit := h.exact edit (List.mem_of_mem_filter hedit)
  apart := h.apart.filter p
  insertionsFirst := h.insertionsFirst.filter p

/-- A list in which nothing that lacks a property comes behind something that has it. -/
theorem eq_filter_append_filter {α : Type} (p : α → Bool) {l : List α}
    (h : l.Pairwise fun a b => p a = true → p b = true) :
    l = l.filter (fun a => !p a) ++ l.filter p := by
  induction l with
  | nil => rfl
  | cons a l ih =>
    obtain ⟨ha, hl⟩ := List.pairwise_cons.1 h
    cases hp : p a with
    | false => simpa [hp] using ih hl
    | true =>
      have hall : ∀ b ∈ l, p b = true := fun b hb => ha b hb hp
      have hnone : l.filter (fun a => !p a) = [] := List.filter_eq_nil_iff.2 (by simpa using hall)
      simp [hp, hnone, List.filter_eq_self.2 hall]

end Protocol

end WorkspaceEditing
