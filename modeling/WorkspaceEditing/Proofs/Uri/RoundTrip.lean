import Mathlib.Tactic.FinCases
import WorkspaceEditing.Proofs.Uri.Segment

/-!
# Paths written as URIs and read back

A path is written as a URI name by name. The URI falls into the parts that it was made of: no name
is cut, none is taken for a dot segment, and escapes decode to the bytes that they stand for. What
comes back may differ from the path in slashes and in `.` only.

## Main definitions

* `Path.IsOrdinary` — a name that stands for something in its directory.
* `Uri.segments` — the names of a path as segments between slashes.

## Main results

* `Uri.isSome_ofPath?_iff` — the paths that have a URI.
* `Uri.toPath?_ofPath?` — the URI of a path leads to that path, and to no other.
-/

namespace WorkspaceEditing

/-! ## Names -/

namespace Path

/-- A name that stands for something in its directory, and not for the directory itself or the one
above. -/
structure IsOrdinary (name : Name) : Prop where
  ne_nil : name ≠ []
  slash_not_mem : slash ∉ name
  ne_here : name ≠ here
  ne_above : name ≠ above

/-- All names of a path that never goes up are ordinary. -/
theorem IsDirect.isOrdinary {p : Path} (h : p.IsDirect) {name : Name} (hname : name ∈ p.names) :
    IsOrdinary name := by
  obtain ⟨hpiece, htrivial⟩ := List.mem_filter.1 (names_eq p ▸ hname)
  simp only [isTrivial, Bool.not_eq_true', Bool.or_eq_false_iff, beq_eq_false_iff_ne] at htrivial
  exact ⟨htrivial.1, not_mem_of_mem_pieces hpiece, htrivial.2, fun heq => h (heq ▸ hname)⟩

/-- Ordinary names between slashes are the names of the path. -/
theorem names_joined {names : List Name} (h : ∀ name ∈ names, IsOrdinary name) :
    Path.names ⟨slash :: joined slash names⟩ = names := by
  have hkept : names.filter (fun name => !isTrivial name) = names := by
    rw [List.filter_eq_self]
    intro name hname
    simp [isTrivial, (h name hname).ne_nil, (h name hname).ne_here]
  rw [names_eq, pieces_cons_sep]
  by_cases hnil : names = []
  · rw [hnil]
    rfl
  · rw [pieces_joined slash hnil fun name hname => (h name hname).slash_not_mem]
    simpa [isTrivial] using hkept

end Path

namespace Uri

/-! ## The URI of a path -/

/-- The names of a path, as segments between slashes. -/
def segments (names : List Name) : Text := joined '/' (names.map segment)

theorem prefix_joined {α : Type} (sep : α) (piece : List α) (rest : List (List α)) :
    piece <+: joined sep (piece :: rest) := by
  cases rest with
  | nil => exact List.prefix_rfl
  | cons next rest => exact List.prefix_append piece _

theorem not_mem_joined {α : Type} {sep a : α} (hsep : a ≠ sep) {l : List (List α)}
    (h : ∀ piece ∈ l, a ∉ piece) : a ∉ joined sep l := by
  induction l with
  | nil => exact List.not_mem_nil
  | cons piece rest ih =>
    have hpiece := h piece List.mem_cons_self
    have hrest := ih fun piece hmem => h piece (List.mem_cons_of_mem _ hmem)
    cases rest with
    | nil => exact hpiece
    | cons next rest =>
      rw [joined_cons_cons]
      simp [hpiece, hsep, hrest]

theorem decode_segments (names : List Name) :
    Percent.decode (segments names) = joined Path.slash names := by
  unfold segments
  induction names with
  | nil => rfl
  | cons name rest ih =>
    cases rest with
    | nil => exact decode_segment name
    | cons next rest =>
      rw [List.map_cons, List.map_cons, joined_cons_cons, decode_segment_append, decode_slash,
        ← List.map_cons, ih]
      rfl

theorem cutAt_of_not_mem {c : Char} {t : Text} (h : c ∉ t) : cutAt c t = (t, none) := by
  induction t with
  | nil => rfl
  | cons first rest ih =>
    obtain ⟨hfirst, hrest⟩ := List.ne_and_not_mem_of_not_mem_cons h
    rw [cutAt, if_neg hfirst.symm, ih hrest]

/-- The URI of a path has the scheme `file` and an empty host. -/
theorem ofText_file (names : List Name) :
    Reference.ofText ("file:///".toList ++ segments names) =
      ⟨some "file".toList, some [], '/' :: segments names, none, none⟩ := by
  have hdelimiter {c : Char} (hc : c ∈ ['#', '?']) :
      c ∉ "file:///".toList ++ segments names := by
    have hsegments : c ∉ segments names := by
      apply not_mem_joined
      · rintro rfl
        exact absurd hc (by decide)
      · intro s hs
        obtain ⟨name, -, rfl⟩ := List.mem_map.1 hs
        exact not_mem_segment (List.mem_cons_of_mem '/' hc) name
    rw [List.mem_append, not_or]
    refine ⟨?_, hsegments⟩
    rintro hmem
    fin_cases hc <;> exact absurd hmem (by decide)
  simp only [Reference.ofText, cutAt_of_not_mem (hdelimiter (by decide : '#' ∈ ['#', '?'])),
    cutAt_of_not_mem (hdelimiter (by decide : '?' ∈ ['#', '?']))]
  rfl

/-! ## The path of the URI -/

/-- The segments of the path are those of the names, and a single empty one if there is no name. -/
theorem segmentsOf_segments (names : List Name) :
    segmentsOf ('/' :: segments names) = if names = [] then [[]] else names.map segment := by
  show pieces '/' (segments names) = _
  split_ifs with hnames
  · rw [hnames]
    rfl
  · apply pieces_joined '/' (by simpa using hnames)
    intro s hs
    obtain ⟨name, -, rfl⟩ := List.mem_map.1 hs
    exact not_mem_segment List.mem_cons_self name

/-- An ordinary name is not written as a dot segment. -/
theorem segment_not_dots {name : Name} (h : Path.IsOrdinary name) :
    isDoubleDot (segment name) = false ∧ isSingleDot (segment name) = false := by
  constructor
  · refine Bool.eq_false_iff.2 fun hdot => h.ne_above ?_
    rw [← decode_segment name, decode_of_isDoubleDot hdot]
  · refine Bool.eq_false_iff.2 fun hdot => h.ne_here ?_
    rw [← decode_segment name, decode_of_isSingleDot hdot]

/-- Ordinary names are segments that resolving leaves as they are. -/
theorem resolve_segments {names : List Name} (h : ∀ name ∈ names, Path.IsOrdinary name) :
    resolve ('/' :: segments names) = '/' :: segments names := by
  have hdots : ∀ s ∈ segmentsOf ('/' :: segments names),
      isDoubleDot s = false ∧ isSingleDot s = false := by
    rw [segmentsOf_segments]
    split_ifs with hnames
    · decide
    · intro s hs
      obtain ⟨name, hname, rfl⟩ := List.mem_map.1 hs
      exact segment_not_dots (h name hname)
  rw [resolve, resolveSegments_eq hdots, segmentsOf_segments]
  split_ifs with hnames
  · rw [hnames]
    rfl
  · rfl

theorem head?_segments_ne {names : List Name} (h : ∀ name ∈ names, name ≠ []) :
    (segments names).head? ≠ some '/' := by
  cases names with
  | nil => decide
  | cons name rest =>
    obtain ⟨c, s, hs⟩ :=
      List.exists_cons_of_ne_nil (segment_ne_nil (h name List.mem_cons_self))
    have hc : c ≠ '/' := by
      rintro rfl
      exact not_mem_segment List.mem_cons_self name (hs ▸ List.mem_cons_self)
    have hprefix := prefix_joined '/' (segment name) (rest.map segment)
    rw [hs] at hprefix
    obtain ⟨x, hx⟩ := hprefix
    rw [segments, List.map_cons, hs, ← hx]
    simpa using hc

/-- Behind the first slash there is none that would be dropped. -/
theorem resolveFile_segments {names : List Name} (h : ∀ name ∈ names, Path.IsOrdinary name) :
    resolveFile ('/' :: segments names) = '/' :: segments names := by
  have hhead := head?_segments_ne fun name hname => (h name hname).ne_nil
  rw [resolveFile, resolve_segments h]
  cases hsegments : segments names with
  | nil => rfl
  | cons c s =>
    rw [hsegments] at hhead
    have hc : (c == '/') = false := by simpa using hhead
    rw [List.dropWhile_cons_of_pos (by decide), List.dropWhile_cons_of_neg (by simp [hc])]

/-! ## Well-formedness -/

theorem consistsOf_cons_of_ne {c : Char} (h : c ≠ '%') (alphabet : Char → Bool) (rest : Text) :
    Reference.consistsOf alphabet (c :: rest) =
      (alphabet c && Reference.consistsOf alphabet rest) := by
  rw [Reference.consistsOf.eq_3 _ _ _ fun _ _ _ heq => absurd heq h]

theorem consistsOf_segment_append (name : Name) (rest : Text) :
    Reference.consistsOf Reference.isPathChar (segment name ++ rest) =
      (name.all (fun b => !isBarred b) && Reference.consistsOf Reference.isPathChar rest) := by
  have hdigit : ∀ n < 16, Percent.isHexDigit (Percent.digit n) = true := by decide
  induction name with
  | nil => rfl
  | cons b name ih =>
    rw [List.all_cons, Bool.and_assoc, ← ih]
    show Reference.consistsOf _ ((_ ++ segment name) ++ rest) = _
    rw [List.append_assoc]
    split_ifs with hb
    · have hlt := b.toNat_lt
      have hhigh := hdigit (b.toNat / 16) (by omega)
      have hlow := hdigit (b.toNat % 16) (by omega)
      simp [Percent.escape, Reference.consistsOf, hhigh, hlow, isBarred_of_escaped hb]
    · obtain ⟨-, hdelimits, hpath⟩ := of_not_escaped (by simpa using hb)
      have hne : Char.ofNat b.toNat ≠ '%' := by
        rintro heq
        rw [heq] at hdelimits
        exact hdelimits (by decide)
      rw [List.singleton_append, consistsOf_cons_of_ne hne, hpath]

theorem consistsOf_segments (names : List Name) :
    Reference.consistsOf Reference.isPathChar (segments names) =
      names.all fun name => name.all fun b => !isBarred b := by
  unfold segments
  induction names with
  | nil => rfl
  | cons name rest ih =>
    rw [List.all_cons, ← ih]
    cases rest with
    | nil =>
      have happend := consistsOf_segment_append name []
      rw [List.append_nil] at happend
      exact happend
    | cons next rest =>
      rw [List.map_cons, List.map_cons, joined_cons_cons, consistsOf_segment_append,
        consistsOf_cons_of_ne (by decide)]
      rfl

/-- The paths that have a URI are the absolute ones whose names hold no barred byte. -/
theorem isSome_ofPath?_iff {p : Path} :
    (ofPath? p).isSome = true ↔
      p.isAbsolute = true ∧ ∀ name ∈ p.names, ∀ b ∈ name, isBarred b = false := by
  have hparts : (Reference.ofText ("file:///".toList ++ segments p.names)).wellFormed =
      p.names.all fun name => name.all fun b => !isBarred b := by
    have hscheme : Reference.isScheme "file".toList = true := by decide
    have hhost : Reference.isAuthority [] = true := by decide
    have hslash : Reference.isPathChar '/' = true := by decide
    rw [ofText_file, ← consistsOf_segments]
    show (Reference.isScheme "file".toList && Reference.isAuthority [] &&
      Reference.consistsOf _ ('/' :: segments p.names) && true && true) = _
    rw [hscheme, hhost, consistsOf_cons_of_ne (by decide), hslash, Bool.and_true, Bool.and_true]
    rfl
  have hall : (p.names.all fun name => name.all fun b => !isBarred b) = true ↔
      ∀ name ∈ p.names, ∀ b ∈ name, isBarred b = false := by simp
  unfold ofPath?
  split_ifs with habsolute
  · show (ofText? ("file:///".toList ++ segments p.names)).isSome = true ↔ _
    rw [← hall, ← hparts, ofText?]
    generalize "file:///".toList ++ segments p.names = t
    split_ifs with hwell
    · simp [habsolute, hwell]
    · simp [hwell]
  · simp [habsolute]

/-! ## There and back -/

/-- A URI that was written for a path leads to the path of the same names. -/
theorem toPath?_of_text {names : List Name} {u : Uri}
    (hu : u.text = "file:///".toList ++ segments names)
    (h : ∀ name ∈ names, Path.IsOrdinary name) :
    u.toPath? = some ⟨closeDrive (Path.slash :: joined Path.slash names)⟩ := by
  have hkind : schemeKind "file".toList = .file := by decide
  have hpath : filePath? (some []) ('/' :: segments names) = some ('/' :: segments names) := by
    rw [filePath?, if_neg (by decide), if_pos rfl, resolveFile_segments h]
  simp only [toPath?, reference, hu, ofText_file, Option.bind_eq_bind, Option.bind_some, hkind,
    hpath, decode_slash, decode_segments]
  rfl

/-- The URI of a path leads to that path, up to slashes and `.`, and no other path that never goes
up has the same URI. -/
theorem toPath?_ofPath? {p : Path} (hdirect : p.IsDirect) {u : Uri} (h : ofPath? p = some u) :
    (∃ q, u.toPath? = some q ∧ q.same p = true) ∧
      ∀ p' : Path, p'.IsDirect → ofPath? p' = some u → p'.same p = true := by
  have hleads {p : Path} (hdirect : p.IsDirect) (h : ofPath? p = some u) :
      p.isAbsolute = true ∧ ∃ q, u.toPath? = some q ∧ q.isAbsolute = true ∧ q.names = p.names := by
    unfold ofPath? at h
    split_ifs at h with habsolute
    have htext := ofText?_eq_some.1 h
    have hordinary := fun name (hname : name ∈ p.names) => hdirect.isOrdinary hname
    have hpath := toPath?_of_text htext hordinary
    refine ⟨habsolute, _, hpath, isAbsolute_of_toPath? hpath, ?_⟩
    rw [names_closeDrive, Path.names_joined hordinary]
  obtain ⟨habsolute, q, hq, habsolute', hnames⟩ := hleads hdirect h
  refine ⟨⟨q, hq, (Path.same_iff habsolute).2 ⟨habsolute', hnames⟩⟩, ?_⟩
  intro p' hdirect' h'
  obtain ⟨habsolute'', q', hq', -, hnames'⟩ := hleads hdirect' h'
  obtain rfl : q' = q := Option.some.inj (hq'.symm.trans hq)
  exact (Path.same_iff habsolute).2 ⟨habsolute'', hnames'.symm.trans hnames⟩

/-- A path with a drive letter, an escape that is none, a byte beyond ASCII, a control, a backslash,
a dot and doubled slashes. It ends in a drive letter, and gets a slash behind it. -/
theorem toPath?_ofPath?_drives :
    let p : Path := ⟨"/C:/a %2e".toUTF8.toList ++ [0xFF, 0x00, 0x5C] ++ "//./D:".toUTF8.toList⟩
    let u : Uri := ⟨"file:///C:/a%20%252e%FF%00%5C/D:".toList, by decide +kernel⟩
    p.IsDirect ∧ ofPath? p = some u ∧ (∃ q, u.toPath? = some q ∧ q.same p = true) ∧
      ∀ p' : Path, p'.IsDirect → ofPath? p' = some u → p'.same p = true := by
  intro p u
  have hdirect : p.IsDirect := by decide +kernel
  have hwritten : ofPath? p = some u := by decide +kernel
  exact ⟨hdirect, hwritten, toPath?_ofPath? hdirect hwritten⟩

end Uri

end WorkspaceEditing
