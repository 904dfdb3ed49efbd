/-!
# Cutting a list at a separator

A text is cut into lines at its line breaks, and a path into names at its slashes. Both are the
same operation on lists: cut at every occurrence of one element, and put the pieces back together
with that element between them.

## Main definitions

* `pieces` — the pieces of a list between the occurrences of a separator.
* `joined` — pieces put back together, with the separator between them.
-/

namespace WorkspaceEditing

variable {α : Type}

/-- The pieces of a list between the occurrences of `sep`. A list without a separator is one
piece, and so is the empty list. -/
def pieces [DecidableEq α] (sep : α) : List α → List (List α)
  | [] => [[]]
  | a :: rest =>
    if a = sep then [] :: pieces sep rest
    else match pieces sep rest with
      | [] => [[a]]
      | first :: others => (a :: first) :: others

/-- The pieces put back together, with `sep` between them. -/
def joined (sep : α) : List (List α) → List α
  | [] => []
  | piece :: others =>
    match others with
    | [] => piece
    | _ :: _ => piece ++ sep :: joined sep others

/-! ## pieces -/

section

variable [DecidableEq α]

@[simp] theorem pieces_nil (sep : α) : pieces sep [] = [[]] := rfl

@[simp] theorem pieces_cons_sep (sep : α) (l : List α) :
    pieces sep (sep :: l) = [] :: pieces sep l := by simp [pieces]

/-- There is always a first piece, even of the empty list. -/
@[simp] theorem pieces_ne_nil (sep : α) (l : List α) : pieces sep l ≠ [] := by
  induction l with
  | nil => simp
  | cons a l _ => unfold pieces; split <;> (try split) <;> simp

/-- An element other than the separator joins the first piece of what follows it. -/
theorem pieces_cons_of_ne {sep a : α} (h : a ≠ sep) (l : List α) :
    ∃ first others, pieces sep l = first :: others ∧
      pieces sep (a :: l) = (a :: first) :: others := by
  cases hp : pieces sep l with
  | nil => exact absurd hp (pieces_ne_nil sep l)
  | cons first others => exact ⟨first, others, rfl, by simp [pieces, h, hp]⟩

/-- There is one piece more than there are separators. -/
theorem length_pieces (sep : α) (l : List α) :
    (pieces sep l).length = l.count sep + 1 := by
  induction l with
  | nil => rfl
  | cons a l ih =>
    by_cases h : a = sep
    · subst h; simp [ih]
    · obtain ⟨first, others, hl, hal⟩ := pieces_cons_of_ne h l
      rw [hal]; rw [hl] at ih; simpa [h] using ih

/-- A list without a separator is one piece. -/
theorem pieces_of_not_mem {sep : α} {l : List α} (h : sep ∉ l) : pieces sep l = [l] := by
  induction l with
  | nil => rfl
  | cons a l ih =>
    obtain ⟨ha, hrest⟩ := List.ne_and_not_mem_of_not_mem_cons h
    simp [pieces, Ne.symm ha, ih hrest]

/-- No piece holds the separator. -/
theorem not_mem_of_mem_pieces {sep : α} {l piece : List α} (h : piece ∈ pieces sep l) :
    sep ∉ piece := by
  induction l generalizing piece with
  | nil => simp at h; simp [h]
  | cons a l ih =>
    by_cases ha : a = sep
    · subst ha
      rcases (by simpa using h : piece = [] ∨ piece ∈ pieces a l) with rfl | hmem
      · simp
      · exact ih hmem
    · obtain ⟨first, others, hl, hal⟩ := pieces_cons_of_ne ha l
      rw [hal] at h
      rcases List.mem_cons.1 h with rfl | hmem
      · have := ih (hl ▸ List.mem_cons_self : first ∈ pieces sep l)
        simp [this, Ne.symm ha]
      · exact ih (hl ▸ List.mem_cons_of_mem _ hmem)

end

/-! ## joined -/

@[simp] theorem joined_singleton (sep : α) (piece : List α) : joined sep [piece] = piece := rfl

@[simp] theorem joined_cons_cons (sep : α) (piece next : List α) (others : List (List α)) :
    joined sep (piece :: next :: others) = piece ++ sep :: joined sep (next :: others) := rfl

/-- Cutting loses nothing. -/
@[simp] theorem joined_pieces [DecidableEq α] (sep : α) (l : List α) :
    joined sep (pieces sep l) = l := by
  induction l with
  | nil => rfl
  | cons a l ih =>
    by_cases h : a = sep
    · subst h
      cases hp : pieces a l with
      | nil => exact absurd hp (pieces_ne_nil a l)
      | cons first others => rw [pieces_cons_sep, hp, joined_cons_cons, ← hp, ih]; rfl
    · obtain ⟨first, others, hl, hal⟩ := pieces_cons_of_ne h l
      rw [hl] at ih
      rw [hal]
      cases others with
      | nil => simpa using ih
      | cons next others => simpa using ih

end WorkspaceEditing
