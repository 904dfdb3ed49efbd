import WorkspaceEditing.Proofs.Text.Extent
import WorkspaceEditing.Uri.FilePath

/-!
# The names along a path

An absolute path is known by its names: it is the same as another absolute path if the names are the
same, and lies beneath another if the names of that one begin its own. To write the rest of a path
behind another base is to exchange the names of the one base for those of the other. Whatever a URI
leads to is an absolute path.

## Main definitions

* `Path.IsDirect` — a path that never goes up.

## Main results

* `Path.startsWith_iff`, `Path.same_iff` — the comparisons of paths by names.
* `Path.names_join`, `Path.names_of_stripPrefix?` — names of paths that are put together and taken
  apart.
* `Uri.isAbsolute_of_toPath?` — a URI leads to an absolute path.
-/

namespace WorkspaceEditing

/-! ## Pieces put together and cut again -/

/-- Pieces that are put together are found again, if the separator is in none of them. -/
theorem pieces_joined {α : Type} [DecidableEq α] (sep : α) {l : List (List α)} (hne : l ≠ [])
    (h : ∀ piece ∈ l, sep ∉ piece) : pieces sep (joined sep l) = l := by
  induction l with
  | nil => exact absurd rfl hne
  | cons piece rest ih =>
    have hfirst := pieces_of_not_mem (h piece List.mem_cons_self)
    cases rest with
    | nil => exact hfirst
    | cons next rest =>
      rw [joined_cons_cons, pieces_append_cons_sep, hfirst,
        ih (List.cons_ne_nil _ _) fun piece hmem => h piece (List.mem_cons_of_mem _ hmem)]
      rfl

namespace Path

variable {p q base suffix : Path}

/-- The path never goes up. -/
def IsDirect (p : Path) : Prop := above ∉ p.names

instance (p : Path) : Decidable p.IsDirect := inferInstanceAs (Decidable (above ∉ p.names))

/-! ## Names -/

/-- The names of a path are those pieces of it that mean something. -/
theorem names_eq (p : Path) :
    p.names = (pieces slash p.bytes).filter fun name => !isTrivial name := by
  unfold names body
  split_ifs with h
  · obtain ⟨rest, hbytes⟩ := List.head?_eq_some_iff.1 (beq_iff_eq.1 h)
    rw [hbytes, List.tail_cons, pieces_cons_sep]
    rfl
  · rfl

/-- What is written behind a slash adds its names. -/
theorem names_append_slash (s t : List UInt8) :
    names ⟨s ++ slash :: t⟩ = names ⟨s⟩ ++ names ⟨t⟩ := by
  simp only [names_eq, pieces_append_cons_sep, List.filter_append]

theorem names_join (p q : Path) : (p.join q).names = p.names ++ q.names := by
  obtain ⟨s⟩ := p
  obtain ⟨t⟩ := q
  unfold join
  split_ifs with ht hs
  · obtain rfl : t = [] := ht
    simp [names_eq, isTrivial]
  · obtain ⟨r, hr⟩ := List.getLast?_eq_some_iff.1 hs
    obtain rfl : s = r ++ [slash] := hr
    have hslash := names_append_slash r []
    rw [show (⟨r ++ [slash]⟩ : Path).names = names ⟨r⟩ ++ names ⟨[]⟩ from hslash,
      List.append_assoc, List.singleton_append, names_append_slash]
    simp [names_eq ⟨[]⟩, isTrivial]
  · exact names_append_slash s t

theorem isAbsolute_join (h : p.isAbsolute = true) (q : Path) : (p.join q).isAbsolute = true := by
  obtain ⟨rest, hrest⟩ := List.head?_eq_some_iff.1 (beq_iff_eq.1 h)
  unfold join isAbsolute
  split_ifs <;> simp [hrest]

/-! ## Comparing paths -/

theorem components_of_isAbsolute (h : p.isAbsolute = true) :
    p.components = .root :: p.names.map .name := by simp [components, h]

theorem root_mem_components_iff : Component.root ∈ p.components ↔ p.isAbsolute = true := by
  unfold components
  split_ifs with h <;> simp [h]

theorem name_injective : Function.Injective Component.name := fun _ _ h => Component.name.inj h

/-- A path is at an absolute path or beneath it if it is absolute, and the names of the other begin
its own. -/
theorem startsWith_iff (h : base.isAbsolute = true) :
    p.startsWith base = true ↔ p.isAbsolute = true ∧ base.names <+: p.names := by
  rw [startsWith, List.isPrefixOf_iff_prefix, components_of_isAbsolute h]
  by_cases hp : p.isAbsolute = true
  · rw [components_of_isAbsolute hp, List.cons_prefix_cons,
      List.prefix_map_iff_of_injective name_injective]
    simp [hp]
  · simp only [hp, false_and, iff_false, Bool.false_eq_true]
    intro hleads
    exact hp (root_mem_components_iff.1 (hleads.subset List.mem_cons_self))

theorem same_iff (h : q.isAbsolute = true) :
    p.same q = true ↔ p.isAbsolute = true ∧ p.names = q.names := by
  rw [same, beq_iff_eq, components_of_isAbsolute h]
  by_cases hp : p.isAbsolute = true
  · rw [components_of_isAbsolute hp, List.cons_inj_right, List.map_inj_right name_injective]
    simp [hp]
  · simp only [hp, false_and, iff_false, Bool.false_eq_true]
    intro heq
    exact hp (root_mem_components_iff.1 (heq ▸ List.mem_cons_self))

/-! ## The rest of a path -/

theorem filter_trimEnd (l : List Name) :
    (trimEnd l).filter (fun name => !isTrivial name) = l.filter fun name => !isTrivial name := by
  have hdrop (l : List Name) : (l.dropWhile isTrivial).filter (fun name => !isTrivial name) =
      l.filter fun name => !isTrivial name := by
    induction l with
    | nil => rfl
    | cons name rest ih => by_cases h : isTrivial name <;> simp [h, ih]
  rw [trimEnd, List.filter_reverse, hdrop, List.filter_reverse, List.reverse_reverse]

theorem filter_dropNames (n : Nat) (l : List Name) :
    (dropNames n l).filter (fun name => !isTrivial name) =
      (l.filter fun name => !isTrivial name).drop n := by
  fun_induction dropNames n l <;> simp_all

theorem dropNames_sublist (n : Nat) (l : List Name) : (dropNames n l).Sublist l := by
  fun_induction dropNames n l <;> grind

/-- The rest of a path beneath a base has the names that follow those of the base. -/
theorem names_of_stripPrefix? (h : p.stripPrefix? base = some suffix) :
    suffix.names = p.names.drop base.names.length := by
  unfold stripPrefix? at h
  split_ifs at h
  obtain rfl := Option.some.inj h
  obtain ⟨l, hl⟩ : ∃ l, l = trimEnd (dropNames base.names.length p.body) := ⟨_, rfl⟩
  have hnames : l.filter (fun name => !isTrivial name) = p.names.drop base.names.length := by
    rw [hl, filter_trimEnd, filter_dropNames]
    rfl
  have hslash : ∀ name ∈ l, slash ∉ name := by
    intro name hname
    rw [hl, trimEnd, List.mem_reverse] at hname
    have hbody := (dropNames_sublist _ _).subset
      (List.mem_reverse.1 ((List.dropWhile_sublist _).subset hname))
    exact not_mem_of_mem_pieces hbody
  rw [← hl, ← hnames, names_eq]
  by_cases hnil : l = []
  · rw [hnil]
    rfl
  · rw [pieces_joined slash hnil hslash]

/-- A path that has a rest is beneath the base. -/
theorem startsWith_of_stripPrefix? (h : p.stripPrefix? base = some suffix) :
    p.startsWith base = true := by
  unfold stripPrefix? at h
  split_ifs at h with hp
  exact hp.2

/-- A path beneath a base has a rest. -/
theorem exists_stripPrefix? (h : base.isAbsolute = true) (hp : p.startsWith base = true) :
    ∃ suffix, p.stripPrefix? base = some suffix := by
  have habsolute := ((startsWith_iff h).1 hp).1
  exact ⟨_, if_pos ⟨habsolute, hp⟩⟩

end Path

/-! ## Paths of URIs -/

namespace Uri

variable {authority : Option Text} {path t : Text}

theorem head?_of_filePath? (h : filePath? authority path = some t) : t.head? = some '/' := by
  cases authority with
  | none => exact Option.some.inj h ▸ rfl
  | some host =>
    simp only [filePath?, Option.bind_eq_bind] at h
    split_ifs at h
    · exact Option.some.inj h ▸ rfl
    · exact Option.some.inj h ▸ rfl
    · obtain ⟨address, -, h⟩ := Option.bind_eq_some_iff.1 h
      split_ifs at h
      exact Option.some.inj h ▸ rfl

theorem head?_of_webPath? (h : webPath? authority path = some t) : t.head? = some '/' := by
  simp only [webPath?] at h
  split_ifs at h
  exact Option.some.inj h ▸ rfl

theorem head?_of_otherPath? (h : otherPath? authority path = some t) : t.head? = some '/' := by
  simp only [otherPath?] at h
  split_ifs at h
  exact Option.some.inj h ▸ rfl

theorem head?_decode (rest : Text) :
    (Percent.decode ('/' :: rest)).head? = some Path.slash := by
  rw [Percent.decode.eq_3 _ _ fun _ _ _ h => absurd h (by decide)]
  rfl

theorem head?_closeDrive {bytes : List UInt8} {b : UInt8} (h : bytes.head? = some b) :
    (closeDrive bytes).head? = some b := by
  unfold closeDrive
  split
  · split <;> simp [h]
  · exact h

/-- A URI leads to an absolute path. -/
theorem isAbsolute_of_toPath? {u : Uri} {p : Path} (h : u.toPath? = some p) :
    p.isAbsolute = true := by
  simp only [toPath?, Option.bind_eq_bind, Option.bind_eq_some_iff, Option.pure_def] at h
  obtain ⟨scheme, -, h⟩ := h
  obtain ⟨t, ht, hp⟩ :
      ∃ t : Text, t.head? = some '/' ∧ some ⟨closeDrive (Percent.decode t)⟩ = some p := by
    cases hkind : schemeKind scheme <;> rw [hkind] at h <;>
      obtain ⟨t, ht, hp⟩ := Option.bind_eq_some_iff.1 h
    · exact ⟨t, head?_of_filePath? ht, hp⟩
    · exact ⟨t, head?_of_webPath? ht, hp⟩
    · exact ⟨t, head?_of_otherPath? ht, hp⟩
  obtain ⟨rest, rfl⟩ := List.head?_eq_some_iff.1 ht
  obtain rfl := Option.some.inj hp
  rw [Path.isAbsolute, head?_closeDrive (head?_decode rest)]
  rfl

end Uri

end WorkspaceEditing
