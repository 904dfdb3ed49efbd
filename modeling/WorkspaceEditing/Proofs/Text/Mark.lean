import Mathlib.Data.Char
import Mathlib.Data.List.Nodup
import WorkspaceEditing.Text.Mark

/-!
# The marks of a buffer in order

A buffer has its marks in the order of their names, and so at most one of each name. To set a mark
keeps this order. To move the marks along with a replacement keeps it too, since a mark that stays
keeps its name, and each mark that stays is on a line of the new text.

## Main definitions

* `Marks.Ordered` — marks in the order of their names.

## Main results

* `Marks.Ordered.set`, `Marks.Ordered.followed` — the order is kept.
* `Marks.mem_foldl_set` — marks of new names are added to those that are set.
-/

namespace WorkspaceEditing

namespace Mark

variable {r : ByteRange} {newLines lineCount : Nat} {m m' : Mark}

/-- A mark that stays keeps its name, -/
theorem name_of_followed (h : m.followed r newLines lineCount = some m') : m'.name = m.name := by
  grind [followed]

/-- and is on a line of the new text. -/
theorem line_lt_of_followed (h : m.followed r newLines lineCount = some m') :
    m'.position.line < lineCount := by
  grind [followed]

/-- A mark on the line where a range starts, or in front of it, stays where it is. -/
theorem followed_of_le (h : m.position.line ≤ r.start.line) (hr : r.start ≤ r.stop)
    (hlt : m.position.line < lineCount) : m.followed r newLines lineCount = some m := by
  have hstop : m.position.line ≤ r.stop.line := by
    rw [BytePosition.le_def] at hr
    omega
  unfold followed
  rw [if_neg (Nat.not_lt.2 hstop), if_neg (fun hbehind => Nat.not_lt.2 h hbehind.1), if_pos hlt]

end Mark

namespace Marks

variable {ms new : Marks} {m x : Mark}

/-- Marks in the order of their names. -/
def Ordered (ms : Marks) : Prop := ms.Pairwise fun m m' => m.name < m'.name

theorem Ordered.nodup_names (h : ms.Ordered) : ms.names.Nodup :=
  List.pairwise_map.2 (h.imp fun hlt => ne_of_lt hlt)

/-- No two marks have one name. -/
theorem Ordered.eq_of_name (h : ms.Ordered) (hm : m ∈ ms) (hx : x ∈ ms) (hname : m.name = x.name) :
    m = x := List.inj_on_of_nodup_map h.nodup_names hm hx hname

/-- A mark that is set is the one of its name. -/
theorem Ordered.mem_and_name_iff (h : ms.Ordered) (hm : m ∈ ms) :
    x ∈ ms ∧ x.name = m.name ↔ x = m := by
  constructor
  · exact fun ⟨hx, hname⟩ => h.eq_of_name hx hm hname
  · rintro rfl
    exact ⟨hm, rfl⟩

/-! ## Setting marks -/

theorem eq_or_mem_of_mem_set (h : x ∈ set m ms) : x = m ∨ x ∈ ms := by
  fun_induction set m ms <;> grind

/-- A mark of a new name is added to the others. -/
theorem mem_set_iff (h : m.name ∉ ms.names) : x ∈ set m ms ↔ x = m ∨ x ∈ ms := by
  simp only [names] at h
  fun_induction set m ms <;> grind

/-- Marks of new names are added to the others. -/
theorem mem_foldl_set (hnew : new.names.Nodup) (h : ∀ m ∈ new, m.name ∉ ms.names) :
    x ∈ new.foldl (fun all m => set m all) ms ↔ x ∈ new ∨ x ∈ ms := by
  induction new generalizing ms with
  | nil => simp
  | cons m rest ih =>
    obtain ⟨hm, hrest⟩ := List.nodup_cons.1 hnew
    have hfresh : ∀ other ∈ rest, other.name ∉ (set m ms).names := by
      intro other hother hmem
      rcases mem_names_set.1 hmem with heq | hmem
      · exact hm (heq ▸ List.mem_map_of_mem hother)
      · exact h other (List.mem_cons_of_mem _ hother) hmem
    rw [List.foldl_cons, ih hrest hfresh, mem_set_iff (h m List.mem_cons_self), List.mem_cons]
    grind

/-! ## The order is kept -/

theorem Ordered.set (h : ms.Ordered) (m : Mark) : (set m ms).Ordered := by
  induction ms with
  | nil => exact List.pairwise_singleton _ m
  | cons other rest ih =>
    obtain ⟨hother, hrest⟩ := List.pairwise_cons.1 h
    unfold Marks.set
    split_ifs with hlt heq
    · refine List.pairwise_cons.2 ⟨?_, h⟩
      intro x hx
      rcases List.mem_cons.1 hx with rfl | hx
      · exact hlt
      · exact lt_trans hlt (hother x hx)
    · exact List.pairwise_cons.2 ⟨fun x hx => heq ▸ hother x hx, hrest⟩
    · refine List.pairwise_cons.2 ⟨?_, ih hrest⟩
      intro x hx
      rcases eq_or_mem_of_mem_set hx with rfl | hx
      · exact lt_of_le_of_ne (not_lt.1 hlt) (Ne.symm heq)
      · exact hother x hx

theorem Ordered.foldl_set (h : ms.Ordered) (new : List Mark) :
    Ordered (new.foldl (fun all m => Marks.set m all) ms) := by
  induction new generalizing ms with
  | nil => exact h
  | cons m rest ih => exact ih (h.set m)

theorem Ordered.followed (h : ms.Ordered) (r : ByteRange) (newLines lineCount : Nat) :
    (ms.followed r newLines lineCount).Ordered := by
  refine List.Pairwise.filterMap _ ?_ h
  intro m m' hlt x hx x' hx'
  rw [Mark.name_of_followed hx, Mark.name_of_followed hx']
  exact hlt

end Marks

end WorkspaceEditing
