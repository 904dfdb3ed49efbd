import Mathlib.Data.List.Find
import Mathlib.Data.List.Induction
import Mathlib.Tactic.SplitIfs
import WorkspaceEditing.Disk.Basic

/-!
# Trees without links

In a file tree, whatever stands at a key stands in a directory. A tree that holds no symbolic link
either is plain: there a path means the key of its names. What is put, taken away or moved in a
plain tree leaves it plain, as long as new entries have a directory to stand in, and nothing is left
beneath an entry that goes.

## Main definitions

* `Disk.IsPlain` — a tree without links.
* `Disk.IsFile` — a file stands at a key.
* `Disk.Movable` — what is at or beneath one key can be moved to another.

## Main results

* `Disk.get?_set`, `Disk.get?_removeBeneath`, `Disk.Movable.cases_move` — what stands where after a
  change.
* `Disk.IsPlain.set`, `Disk.IsPlain.remove`, `Disk.Movable.isPlain_move` — a plain tree stays plain.
-/

namespace WorkspaceEditing

/-- Whether an entry is a link. -/
def Entry.isLink : Entry → Bool
  | .link _ => true
  | _ => false

namespace Disk

variable {d : Disk} {key base other source target : Key} {entry : Entry}

/-! ## What stands at a key -/

/-- A file stands at a key. -/
def IsFile (d : Disk) (key : Key) : Prop := ∃ contents, d.get? key = some (.file contents)

theorem key_of_find? {e : Key × Entry} (h : (d.entries.find? fun e => e.1 = key) = some e) :
    e.1 = key := by simpa using List.find?_some h

theorem exists_get?_of_mem {e : Key × Entry} (h : e ∈ d.entries) : (d.get? e.1).isSome := by
  unfold get?
  split_ifs
  · rfl
  · rw [Option.isSome_map, List.find?_isSome]
    exact ⟨e, h, decide_eq_true rfl⟩

theorem exists_mem_of_get? (hkey : key ≠ []) (h : d.get? key = some entry) :
    (key, entry) ∈ d.entries := by
  rw [get?, if_neg hkey] at h
  obtain ⟨e, he, rfl⟩ := Option.map_eq_some_iff.1 h
  obtain rfl := key_of_find? he
  exact List.mem_of_find?_eq_some he

theorem not_prefix_dropLast (hkey : key ≠ []) : ¬ key <+: key.dropLast := by
  intro hleads
  have hle := hleads.length_le
  have hpos := List.length_pos_iff.2 hkey
  rw [List.length_dropLast] at hle
  omega

theorem isBeneath_iff : isBeneath key base = true ↔ base <+: key ∧ key ≠ base := by
  simp [isBeneath]

theorem get?_of_hasBeneath (h : d.hasBeneath base = false) {rest : Key} (hrest : rest ≠ []) :
    d.get? (base ++ rest) = none := by
  by_contra hsome
  obtain ⟨entry, hentry⟩ := Option.ne_none_iff_exists'.1 hsome
  have hmem := exists_mem_of_get? (List.append_ne_nil_of_right_ne_nil base hrest) hentry
  have hnone := List.any_eq_false.1 h _ hmem
  exact hnone (isBeneath_iff.2 ⟨List.prefix_append base rest, by simpa using hrest⟩)

theorem get?_set (hkey : key ≠ []) :
    (d.set key entry).get? other = if other = key then some entry else d.get? other := by
  by_cases hother : other = []
  · simp [hother, hkey.symm]
  -- the entry that is exchanged keeps its key
  have hcomp : ((fun e : Key × Entry => decide (e.1 = other)) ∘ fun e =>
      if e.1 = key then (key, entry) else e) = fun e => decide (e.1 = other) := by
    funext e
    by_cases h : e.1 = key <;> simp [h]
  unfold set
  split_ifs with hany heq heq
  · obtain ⟨e, he, hekey⟩ := List.any_eq_true.1 hany
    simp only [get?, hother, if_false, List.find?_map, hcomp]
    cases hfound : d.entries.find? fun e => decide (e.1 = other) with
    | none => exact absurd (heq ▸ hekey) (List.find?_eq_none.1 hfound e he)
    | some found => simp [key_of_find? hfound, heq]
  · simp only [get?, hother, if_false, List.find?_map, hcomp]
    cases hfound : d.entries.find? fun e => decide (e.1 = other) with
    | none => rfl
    | some found => simp [key_of_find? hfound, heq]
  · obtain rfl := heq
    have hnone : d.entries.find? (fun e => decide (e.1 = other)) = none :=
      List.find?_eq_none.2 (List.any_eq_false.1 (Bool.eq_false_iff.2 hany))
    simp [get?, hother, List.find?_append, hnone]
  · simp [get?, hother, List.find?_append, Ne.symm heq]

theorem get?_removeBeneath :
    (d.removeBeneath base).get? other = if isBeneath other base then none else d.get? other := by
  by_cases hother : other = []
  · have hroot : isBeneath other base = false := by
      rw [Bool.eq_false_iff, ne_eq, isBeneath_iff, hother, List.prefix_nil]
      exact fun h => h.2 h.1.symm
    simp [hother ▸ hroot, hother]
  simp only [get?, removeBeneath, hother, if_false, List.find?_filter]
  split_ifs with h
  · rw [List.find?_eq_none.2]
    · rfl
    · intro e _ he
      simp only [decide_eq_true_eq] at he
      simp [he.2, h] at he
  · congr 2
    funext e
    by_cases he : e.1 = other <;> simp [he, h]

/-! ## Trees without links -/

/-- Whatever stands in the tree stands in a directory, and nothing is a link. -/
structure IsPlain (d : Disk) : Prop where
  parent : ∀ key, (d.get? key).isSome → d.get? key.dropLast = some .dir
  linkFree : ∀ key link, d.get? key ≠ some (.link link)

/-- It is enough to look at the entries. -/
theorem IsPlain.of_entries
    (h : ∀ e ∈ d.entries, d.get? e.1.dropLast = some .dir ∧ e.2.isLink = false) : d.IsPlain where
  parent key hkey := by
    by_cases hnil : key = []
    · simp [hnil]
    · obtain ⟨entry, hentry⟩ := Option.isSome_iff_exists.1 hkey
      exact (h _ (exists_mem_of_get? hnil hentry)).1
  linkFree key link hkey := by
    by_cases hnil : key = []
    · simp [hnil] at hkey
    · have hlink := (h _ (exists_mem_of_get? hnil hkey)).2
      cases hlink

namespace IsPlain

variable (h : d.IsPlain)
include h

/-- Above all that stands in the tree are directories. -/
theorem get?_of_append {rest : Key} (hrest : rest ≠ []) (hkey : (d.get? (base ++ rest)).isSome) :
    d.get? base = some .dir := by
  induction rest using List.reverseRecOn with
  | nil => exact absurd rfl hrest
  | append_singleton rest name ih =>
    have hparent := h.parent _ hkey
    rw [← List.append_assoc, List.dropLast_concat] at hparent
    by_cases hnil : rest = []
    · simpa [hnil] using hparent
    · exact ih hnil (by simp [hparent])

/-- Nothing stands beneath what is no directory. -/
theorem get?_append (hkey : d.get? base ≠ some .dir) {rest : Key} (hrest : rest ≠ []) :
    d.get? (base ++ rest) = none := by
  by_contra hsome
  exact hkey (h.get?_of_append hrest (Option.isSome_iff_ne_none.2 hsome))

theorem set (hkey : key ≠ []) (hparent : d.get? key.dropLast = some .dir)
    (hentry : ∀ link, entry ≠ .link link) (hdir : entry = .dir ∨ d.get? key ≠ some .dir) :
    (d.set key entry).IsPlain where
  parent other hother := by
    have hne : key.dropLast ≠ key := fun heq =>
      not_prefix_dropLast hkey (heq.symm ▸ List.prefix_refl key)
    rw [get?_set hkey] at hother ⊢
    split_ifs at hother ⊢ with hparentKey hotherKey hotherKey
    · exact absurd (hotherKey ▸ hparentKey) hne
    · rcases hdir with rfl | hdir
      · rfl
      · exact absurd (hparentKey ▸ h.parent other hother) hdir
    · exact hotherKey ▸ hparent
    · exact h.parent other hother
  linkFree other link := by
    rw [get?_set hkey]
    split_ifs
    · exact fun heq => hentry link (Option.some.inj heq)
    · exact h.linkFree other link

theorem remove (hbeneath : ∀ rest ≠ [], d.get? (key ++ rest) = none) : (d.remove key).IsPlain where
  parent other hother := by
    by_cases hnil : other.dropLast = []
    · rw [hnil, get?_nil]
    have hotherNil : other ≠ [] := fun heq => hnil (by rw [heq]; rfl)
    rw [get?_remove hotherNil] at hother
    have hstays : (d.get? other).isSome := by
      by_cases heq : other = key <;> simp_all
    have hne : other.dropLast ≠ key := by
      rintro rfl
      have hnone := hbeneath [other.getLast hotherNil] (List.cons_ne_nil _ _)
      rw [List.dropLast_concat_getLast] at hnone
      simp [hnone] at hstays
    rw [get?_remove hnil, if_neg hne]
    exact h.parent other hstays
  linkFree other link := by
    by_cases hnil : other = []
    · simp [hnil]
    rw [get?_remove hnil]
    split_ifs
    · simp
    · exact h.linkFree other link

/-- All that stands beneath a key may go at once. -/
theorem removeBeneath (base : Key) : (d.removeBeneath base).IsPlain where
  parent other hother := by
    rw [get?_removeBeneath] at hother
    have hkept : isBeneath other base ≠ true := fun heq => by simp [heq] at hother
    have hparent : isBeneath other.dropLast base ≠ true := by
      intro hbeneath
      obtain ⟨hleads, hne⟩ := isBeneath_iff.1 hbeneath
      refine hkept (isBeneath_iff.2 ⟨hleads.trans (List.dropLast_prefix other), ?_⟩)
      rintro rfl
      exact hne ((List.dropLast_prefix other).eq_of_length_le hleads.length_le)
    rw [if_neg hkept] at hother
    rw [get?_removeBeneath, if_neg hparent]
    exact h.parent other hother
  linkFree other link := by
    rw [get?_removeBeneath]
    split_ifs
    · simp
    · exact h.linkFree other link

end IsPlain

/-! ## Moving -/

theorem rebase_append (rest : Key) :
    rebase source target (source ++ rest) = target ++ rest := by simp [rebase]

theorem rebase_of_apart (hkey : ¬ source <+: key) : rebase source target key = key := by
  simp [rebase, hkey]

/-- An entry comes to stand at a key if that is what its own key becomes. -/
theorem get?_move_of_rebase {old : Key} (hold : old ≠ []) (hkey : key ≠ [])
    (hrebase : ∀ e ∈ d.entries, e.1 ≠ target ∧ rebase source target e.1 = key ↔ e.1 = old) :
    (d.move source target).get? key = d.get? old := by
  have hfind : (d.entries.find? fun e => decide (e.1 ≠ target ∧ rebase source target e.1 = key)) =
      d.entries.find? fun e => decide (e.1 = old) :=
    List.find?_congr fun e he => decide_eq_decide.2 (hrebase e he)
  simp only [get?, hold, hkey, if_false, move, remove, List.find?_map, List.find?_filter,
    Function.comp_def, Option.map_map, decide_eq_true_eq, hfind]

/-- What is neither at one of the keys nor beneath it stays. -/
theorem get?_move_of_apart (hsource : ¬ source <+: key) (htarget : ¬ target <+: key) :
    (d.move source target).get? key = d.get? key := by
  by_cases hnil : key = []
  · simp [hnil]
  apply get?_move_of_rebase hnil hnil
  intro e he
  by_cases hleads : source <+: e.1
  · obtain ⟨rest, heq⟩ := hleads
    rw [← heq, rebase_append]
    constructor
    · rintro ⟨-, heq⟩
      exact absurd ⟨rest, heq⟩ htarget
    · intro heq
      exact absurd ⟨rest, heq⟩ hsource
  · rw [rebase_of_apart hleads]
    constructor
    · exact And.right
    · rintro rfl
      exact ⟨fun heq => htarget (heq ▸ List.prefix_refl _), rfl⟩

/-- What is at `source` or beneath it can be moved to `target`: neither key leads through the other,
there is a directory to stand in, and nothing in the way beneath. -/
structure Movable (d : Disk) (source target : Key) : Prop where
  source_ne : source ≠ []
  target_ne : target ≠ []
  apart : ¬ source <+: target
  apart' : ¬ target <+: source
  parent : d.get? target.dropLast = some .dir
  beneath : ∀ rest ≠ [], d.get? (target ++ rest) = none

namespace Movable

variable (h : d.Movable source target)
include h

/-- What comes to stand at `target` or beneath it stood at `source` or beneath it. -/
theorem get?_move_append (rest : Key) :
    (d.move source target).get? (target ++ rest) = d.get? (source ++ rest) := by
  apply get?_move_of_rebase (by simp [h.source_ne]) (by simp [h.target_ne])
  intro e he
  by_cases hsource : source <+: e.1
  · obtain ⟨rest', heq⟩ := hsource
    have hne : source ++ rest' ≠ target := fun heq => h.apart ⟨rest', heq⟩
    rw [← heq, rebase_append]
    simp [hne]
  · rw [rebase_of_apart hsource]
    constructor
    · rintro ⟨hne, heq⟩
      have hnil : rest ≠ [] := by
        rintro rfl
        exact hne (by simpa using heq)
      have := exists_get?_of_mem he
      simp [heq, h.beneath rest hnil] at this
    · intro heq
      exact absurd ⟨rest, heq.symm⟩ hsource

/-- Nothing is left at `source` or beneath it. -/
theorem get?_move_source (rest : Key) : (d.move source target).get? (source ++ rest) = none := by
  by_contra hsome
  obtain ⟨entry, hentry⟩ := Option.ne_none_iff_exists'.1 hsome
  have hmem := exists_mem_of_get? (by simp [h.source_ne]) hentry
  obtain ⟨e, -, heq⟩ := List.mem_map.1 hmem
  have hkey : rebase source target e.1 = source ++ rest := congrArg Prod.fst heq
  by_cases hsource : source <+: e.1
  · obtain ⟨rest', heq⟩ := hsource
    rw [← heq, rebase_append] at hkey
    rcases List.prefix_or_prefix_of_prefix (List.prefix_append source rest)
      (hkey ▸ List.prefix_append target rest') with hleads | hleads
    · exact h.apart hleads
    · exact h.apart' hleads
  · rw [rebase_of_apart hsource] at hkey
    exact hsource ⟨rest, hkey.symm⟩

/-- What stands where after the move. -/
theorem cases_move (key : Key) :
    (∃ rest, key = target ++ rest ∧ (d.move source target).get? key = d.get? (source ++ rest)) ∨
      (source <+: key ∧ ¬ target <+: key ∧ (d.move source target).get? key = none) ∨
      (¬ source <+: key ∧ ¬ target <+: key ∧ (d.move source target).get? key = d.get? key) := by
  by_cases htarget : target <+: key
  · obtain ⟨rest, rfl⟩ := htarget
    exact .inl ⟨rest, rfl, h.get?_move_append rest⟩
  · by_cases hsource : source <+: key
    · obtain ⟨rest, rfl⟩ := hsource
      exact .inr (.inl ⟨List.prefix_append _ _, htarget, h.get?_move_source rest⟩)
    · exact .inr (.inr ⟨hsource, htarget, get?_move_of_apart hsource htarget⟩)

/-- Whatever is moved finds its directory again: its own comes along, and that of the target
stays. -/
theorem isPlain_move (hd : d.IsPlain) : (d.move source target).IsPlain where
  parent key hkey := by
    rcases h.cases_move key with ⟨rest, rfl, heq⟩ | ⟨-, -, heq⟩ | ⟨hsource, htarget, heq⟩
    · rw [heq] at hkey
      by_cases hnil : rest = []
      · have hsource : ¬ source <+: target.dropLast :=
          fun hp => h.apart (hp.trans (List.dropLast_prefix target))
        rw [hnil, List.append_nil, get?_move_of_apart hsource (not_prefix_dropLast h.target_ne)]
        exact h.parent
      · rw [List.dropLast_append_of_ne_nil hnil, h.get?_move_append,
          ← List.dropLast_append_of_ne_nil hnil]
        exact hd.parent _ hkey
    · simp [heq] at hkey
    · rw [heq] at hkey
      rw [get?_move_of_apart (fun hp => hsource (hp.trans (List.dropLast_prefix key)))
        fun hp => htarget (hp.trans (List.dropLast_prefix key))]
      exact hd.parent key hkey
  linkFree key link := by
    rcases h.cases_move key with ⟨rest, rfl, heq⟩ | ⟨-, -, heq⟩ | ⟨-, -, heq⟩
    · exact heq ▸ hd.linkFree _ link
    · simp [heq]
    · exact heq ▸ hd.linkFree key link

end Movable

end Disk

end WorkspaceEditing
