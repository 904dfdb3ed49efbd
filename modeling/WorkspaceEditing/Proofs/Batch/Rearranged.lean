import WorkspaceEditing.Apply.TextEdits
import WorkspaceEditing.Editor.Operations
import WorkspaceEditing.Proofs.Protocol.Order

/-!
# Batches in another order

Two batches are applied alike if one has the edits of the other in other places, some of them with
the ends of their ranges swapped, as long as edits that start at one place keep their order among
themselves. The edits may be malformed and overlap: the order of application is a sort, and a sorted
list is known once it is known which edits start at each place, and in which order.

## Main definitions

* `Protocol.inAscent` — the edits of a batch by ascending start, edits at one start in the order of
  the batch.
* `Protocol.Rearranges` — batches of which one has the edits of the other in other places.

## Main results

* `Protocol.eq_of_filter_start_eq` — a list by descending start is known by its edits at each start.
* `Protocol.Rearranges.applicationOrder_eq` — rearranged batches are applied in one order.
* `Applier.applyTextEdits_rearranged` — and do the same to every host.
-/

namespace WorkspaceEditing

namespace Protocol

/-! ## Edits at one start -/

/-- Whether an edit starts at a place. -/
def TextEdit.startsAt (p : Position) (edit : TextEdit) : Bool := edit.range.start = p

@[simp] theorem TextEdit.startsAt_iff {p : Position} {edit : TextEdit} :
    edit.startsAt p = true ↔ edit.range.start = p := decide_eq_true_iff

section

variable {edits edits' : List TextEdit}

theorem mem_iff_of_filter_start_eq
    (h : ∀ p, edits.filter (TextEdit.startsAt p) = edits'.filter (TextEdit.startsAt p))
    (x : TextEdit) : x ∈ edits ↔ x ∈ edits' := by
  have hx := congrArg (x ∈ ·) (h x.range.start)
  simpa using hx

/-- By descending start, none starts behind the first. -/
theorem start_le_of_mem_cons {first x : TextEdit} {rest : List TextEdit}
    (h : (first :: rest).Pairwise fun a b => b.range.start ≤ a.range.start)
    (hx : x ∈ first :: rest) : x.range.start ≤ first.range.start := by
  rcases List.mem_cons.1 hx with rfl | hx
  · exact Position.le_iff.2 (.inr ⟨rfl, Nat.le_refl _⟩)
  · exact (List.pairwise_cons.1 h).1 x hx

/-- A list of edits by descending start is known by its edits at each start. -/
theorem eq_of_filter_start_eq
    (h : edits.Pairwise fun a b => b.range.start ≤ a.range.start)
    (h' : edits'.Pairwise fun a b => b.range.start ≤ a.range.start)
    (hsame : ∀ p, edits.filter (TextEdit.startsAt p) = edits'.filter (TextEdit.startsAt p)) :
    edits = edits' := by
  induction edits generalizing edits' with
  | nil =>
    refine (List.eq_nil_iff_forall_not_mem.2 fun x hx => ?_).symm
    exact List.not_mem_nil ((mem_iff_of_filter_start_eq hsame x).2 hx)
  | cons first rest ih =>
    have hmem := mem_iff_of_filter_start_eq hsame
    obtain ⟨first', rest', rfl⟩ :=
      List.exists_cons_of_ne_nil (List.ne_nil_of_mem ((hmem first).1 List.mem_cons_self))
    -- both start with the first edit at the last start
    have hstart : first'.range.start = first.range.start :=
      Position.le_antisymm (start_le_of_mem_cons h ((hmem first').2 List.mem_cons_self))
        (start_le_of_mem_cons h' ((hmem first).1 List.mem_cons_self))
    have hheads := hsame first.range.start
    simp only [List.filter_cons, TextEdit.startsAt_iff, hstart, if_true] at hheads
    obtain rfl := (List.cons.inj hheads).1
    have hrests (p : Position) :
        rest.filter (TextEdit.startsAt p) = rest'.filter (TextEdit.startsAt p) := by
      have hp := hsame p
      simp only [List.filter_cons] at hp
      split_ifs at hp
      · exact (List.cons.inj hp).2
      · exact hp
    rw [ih h.of_cons h'.of_cons hrests]

end

/-- Edits at one start are applied from the last of the batch to the first. -/
theorem applicationOrder_of_start_eq {edits : List TextEdit} {p : Position}
    (h : ∀ edit ∈ edits, edit.normalized.range.start = p) :
    applicationOrder edits = (edits.map TextEdit.normalized).reverse := by
  induction edits using List.reverseRecOn with
  | nil => rfl
  | append_singleton edits edit ih =>
    have hrest := ih fun x hx => h x (List.mem_append_left _ hx)
    have hedit : edit.normalized.range.start = p := h edit (by simp)
    rw [applicationOrder_concat, hrest, List.map_append, List.reverse_append]
    cases hall : (edits.map TextEdit.normalized).reverse with
    | nil => rfl
    | cons first others =>
      have hmem : first ∈ (edits.map TextEdit.normalized).reverse := by simp [hall]
      obtain ⟨raw, hraw, rfl⟩ := List.mem_map.1 (List.mem_reverse.1 hmem)
      have hfirst := h raw (List.mem_append_left _ hraw)
      simp [insertInOrder, Position.before, hedit, hfirst]

/-- So are those of them at one start. -/
theorem filter_start_applicationOrder (edits : List TextEdit) (p : Position) :
    (applicationOrder edits).filter (TextEdit.startsAt p) =
      ((edits.map TextEdit.normalized).filter (TextEdit.startsAt p)).reverse := by
  have hstart : ∀ edit ∈ edits.filter fun edit => edit.normalized.startsAt p,
      edit.normalized.range.start = p := by
    intro edit hedit
    simpa using List.of_mem_filter hedit
  rw [← applicationOrder_filter, applicationOrder_of_start_eq hstart, List.filter_map]
  rfl

/-- Batches with the same edits at each start, in the same order, are applied in one order. -/
theorem applicationOrder_congr {edits edits' : List TextEdit}
    (h : ∀ p, (edits.map TextEdit.normalized).filter (TextEdit.startsAt p) =
      (edits'.map TextEdit.normalized).filter (TextEdit.startsAt p)) :
    applicationOrder edits = applicationOrder edits' := by
  apply eq_of_filter_start_eq (pairwise_start_applicationOrder edits)
    (pairwise_start_applicationOrder edits')
  intro p
  rw [filter_start_applicationOrder, filter_start_applicationOrder, h p]

/-! ## The stable sort -/

/-- The edits of a batch, their ranges in order, sorted by ascending start. The sort is stable. -/
def inAscent (edits : List TextEdit) : List TextEdit :=
  (edits.map TextEdit.normalized).mergeSort fun a b => a.range.start ≤ b.range.start

theorem pairwise_inAscent (edits : List TextEdit) :
    (inAscent edits).Pairwise fun a b => a.range.start ≤ b.range.start := by
  have hsorted : (inAscent edits).Pairwise fun a b =>
      decide (a.range.start ≤ b.range.start) = true :=
    List.pairwise_mergeSort (fun a b c hab hbc => by grind) (fun a b => by grind) _
  exact hsorted.imp of_decide_eq_true

/-- The sort leaves the edits at one start in the order of the batch. -/
theorem filter_start_inAscent (edits : List TextEdit) (p : Position) :
    (inAscent edits).filter (TextEdit.startsAt p) =
      (edits.map TextEdit.normalized).filter (TextEdit.startsAt p) := by
  have hequal : ((edits.map TextEdit.normalized).filter (TextEdit.startsAt p)).Pairwise
      fun a b => decide (a.range.start ≤ b.range.start) = true := by
    rw [List.pairwise_filter]
    exact List.pairwise_of_forall fun a b ha hb => by grind [TextEdit.startsAt_iff]
  have hsub := List.sublist_mergeSort (fun a b c hab hbc => by grind) (fun a b => by grind) hequal
    List.filter_sublist
  have hkept := hsub.filter (TextEdit.startsAt p)
  rw [List.filter_filter, List.filter_congr fun x _ => Bool.and_self _] at hkept
  exact (hkept.eq_of_length
    ((List.mergeSort_perm _ _).filter (TextEdit.startsAt p)).length_eq.symm).symm

/-- The order of application is that of the stable sort, from its end. -/
theorem applicationOrder_eq_reverse (edits : List TextEdit) :
    applicationOrder edits = (inAscent edits).reverse := by
  apply eq_of_filter_start_eq (pairwise_start_applicationOrder edits)
    (List.pairwise_reverse.2 (pairwise_inAscent edits))
  intro p
  rw [filter_start_applicationOrder, List.filter_reverse, filter_start_inAscent]

/-! ## Other places in the batch -/

/-- The edit with the ends of its range swapped. -/
def TextEdit.reversed (edit : TextEdit) : TextEdit :=
  { edit with range := ⟨edit.range.stop, edit.range.start⟩ }

/-- Which end is named first is of no account. -/
@[simp] theorem TextEdit.normalized_reversed (edit : TextEdit) :
    edit.reversed.normalized = edit.normalized := by
  obtain ⟨⟨start, stop⟩, newText⟩ := edit
  have hends : (⟨stop, start⟩ : Range).normalized = (⟨start, stop⟩ : Range).normalized := by
    have hsame : start ≤ stop → stop ≤ start → start = stop := Position.le_antisymm
    unfold Range.normalized
    grind [Position.before_iff]
  simp only [TextEdit.normalized, TextEdit.reversed, hends]

/-- The edits of one batch stand in the other batch in the places that they are given, some of them
with the ends of their ranges swapped. Edits that start at one place are in the same order in
both. -/
structure Rearranges (edits edits' : List TextEdit)
    (place : Fin edits.length ≃ Fin edits'.length) : Prop where
  same : ∀ i, edits'[place i] = edits[i] ∨ edits'[place i] = edits[i].reversed
  ordered : ∀ i j, i < j →
    edits[i].normalized.range.start = edits[j].normalized.range.start → place i < place j

/-- The edits at one start, by their places in the batch. -/
theorem filter_start_eq_map (edits : List TextEdit) (p : Position) :
    (edits.map TextEdit.normalized).filter (TextEdit.startsAt p) =
      ((List.finRange edits.length).filter fun i => edits[i].normalized.startsAt p).map
        fun i => edits[i].normalized := by
  have hall : edits.map TextEdit.normalized =
      (List.finRange edits.length).map fun i => edits[i].normalized := by
    conv_lhs => rw [← List.map_getElem_finRange edits, List.map_map]
    rfl
  rw [hall, List.filter_map]
  rfl

namespace Rearranges

variable {edits edits' : List TextEdit} {place : Fin edits.length ≃ Fin edits'.length}
  (h : Rearranges edits edits' place)
include h

theorem normalized_eq (i : Fin edits.length) :
    edits'[place i].normalized = edits[i].normalized := by
  rcases h.same i with heq | heq
  · rw [heq]
  · rw [heq, TextEdit.normalized_reversed]

/-- The places of the edits at one start are taken to each other in order. -/
theorem map_place (p : Position) :
    ((List.finRange edits.length).filter fun i => edits[i].normalized.startsAt p).map place =
      (List.finRange edits'.length).filter fun j => edits'[j].normalized.startsAt p := by
  have hplaces : (((List.finRange edits.length).filter
      fun i => edits[i].normalized.startsAt p).map place).Pairwise (· < ·) := by
    rw [List.pairwise_map, List.pairwise_filter]
    refine (List.pairwise_lt_finRange _).imp fun hij hi hj => h.ordered _ _ hij ?_
    rw [TextEdit.startsAt_iff.1 hi, TextEdit.startsAt_iff.1 hj]
  have hplaces' := (List.pairwise_lt_finRange edits'.length).filter
    fun j => edits'[j].normalized.startsAt p
  refine List.Perm.eq_of_pairwise (fun i j _ _ hij hji => absurd hij (Fin.lt_asymm hji))
    hplaces hplaces' ?_
  -- the same places, each of them once
  rw [List.perm_ext_iff_of_nodup hplaces.nodup hplaces'.nodup]
  intro j
  obtain ⟨i, rfl⟩ := place.surjective j
  have hedit := h.normalized_eq i
  simp only [Fin.getElem_fin] at hedit
  simp [hedit]

/-- Rearranged batches are applied in one order. -/
theorem applicationOrder_eq : applicationOrder edits' = applicationOrder edits := by
  apply applicationOrder_congr
  intro p
  rw [filter_start_eq_map, filter_start_eq_map, ← h.map_place p, List.map_map]
  exact List.map_congr_left fun i _ => h.normalized_eq i

end Rearranges

end Protocol

open Protocol

/-- A batch is applied in the reverse of the stable sort by start. So a batch with the same edits in
other places, their ranges the one way round or the other, has the same result and leaves the same
host and files, if it has edits at one start in the same order. -/
theorem Applier.applyTextEdits_rearranged {σ : Type} (a : Applier σ) (buffer : BufferId) :
    (∀ edits, applicationOrder edits = (inAscent edits).reverse) ∧
    ∀ (edits edits' : List TextEdit) (place : Fin edits.length ≃ Fin edits'.length),
      Rearranges edits edits' place →
        ∀ w, a.applyTextEdits buffer edits' w = a.applyTextEdits buffer edits w := by
  refine ⟨applicationOrder_eq_reverse, ?_⟩
  intro edits edits' place h w
  have hlength := Fin.equiv_iff_eq.1 ⟨place⟩
  have hempty : edits' = [] ↔ edits = [] := by
    rw [← List.length_eq_zero_iff, ← List.length_eq_zero_iff, hlength]
  simp only [applyTextEdits, h.applicationOrder_eq, hempty]

/-- Two insertions at one place keep their order, a range in front of them changes places with them
and is turned round. -/
theorem Applier.applyTextEdits_rearranged_rotated :
    let insertion (c : Char) : TextEdit := ⟨⟨⟨1, 0⟩, ⟨1, 0⟩⟩, [c]⟩
    let edits := [insertion 'x', insertion 'y', ⟨⟨⟨0, 0⟩, ⟨0, 1⟩⟩, []⟩]
    let edits' := [⟨⟨⟨0, 1⟩, ⟨0, 0⟩⟩, []⟩, insertion 'x', insertion 'y']
    let a : Applier Editor := ⟨Editor.asHost, .standard, .utf16⟩
    Rearranges edits edits' (finRotate 3) ∧
      ∀ w, a.applyTextEdits ⟨1⟩ edits' w = a.applyTextEdits ⟨1⟩ edits w := by
  intro insertion edits edits' a
  have h : Rearranges edits edits' (finRotate 3) := ⟨by decide, by decide⟩
  exact ⟨h, (applyTextEdits_rearranged a ⟨1⟩).2 edits edits' (finRotate 3) h⟩

end WorkspaceEditing
