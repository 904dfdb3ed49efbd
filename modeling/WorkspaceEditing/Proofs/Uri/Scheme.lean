import WorkspaceEditing.Proofs.Uri.Segment

/-!
# URIs of other schemes

Which scheme a URI has does not decide whether it leads to a file path. A relative reference leads
to none, and neither does an opaque path, nor a host that is not this machine. Any other URI leads
to the file path that a URI of the scheme `file` with its path leads to.

## Main definitions

* `Uri.isFile` — whether the scheme of a URI is `file`.
* `Uri.authorityAndPath` — what the URL library takes for the authority, and for the path.
* `Uri.isOpaque` — whether the path begins with no slash where it has to.
* `Uri.isLocal` — whether the host is empty, or this machine.

## Main results

* `Uri.toPath?_eq_none_of_foreign` — what leads to no path.
* `Uri.same_file_of_toPath?` — where the scheme is not looked at.
-/

namespace WorkspaceEditing

namespace Uri

/-! ## The parts of a URI of any scheme -/

/-- Whether the scheme of a URI is `file`, in whatever letter case. -/
def isFile (u : Uri) : Bool :=
  u.reference.scheme.any fun scheme => scheme.map Char.toLower == "file".toList

/-- What the URL library takes for the authority of a URI, and for the path. A scheme of the web
has its authority behind any number of slashes. -/
def authorityAndPath (u : Uri) : Option Text × Text :=
  match u.reference.scheme.map schemeKind with
  | some .web =>
    let rest := (u.reference.authority.getD [] ++ u.reference.path).dropWhile (· == '/')
    (some (rest.takeWhile (· ≠ '/')), rest.dropWhile (· ≠ '/'))
  | _ => (u.reference.authority, u.reference.path)

/-- The host of a URI, empty if there is none. -/
def host (u : Uri) : Text :=
  (u.authorityAndPath.1.map fun authority => (cutUserAndNumber authority).2.1).getD []

/-- Whether a URI has a path of its own form: one that begins with no slash, while its scheme is
none of the web. -/
def isOpaque (u : Uri) : Bool :=
  u.reference.scheme.any (fun scheme => schemeKind scheme == .other) &&
    u.reference.path.head? != some '/'

/-- Whether the host of a URI is empty, or this machine. -/
def isLocal (u : Uri) : Bool := u.host == [] || Address.ofHost? u.host == some .localhost

/-! ## The path that they lead to -/

theorem isFile_eq {u : Uri} {scheme : Text} (h : u.reference.scheme = some scheme) :
    u.isFile = (schemeKind scheme == .file) := by
  have hname : (String.ofList (scheme.map Char.toLower) = "file") ↔
      scheme.map Char.toLower = "file".toList := by
    rw [← String.toList_inj, String.toList_ofList]
  rw [isFile, h, Option.any_some, schemeKind]
  split_ifs with hfile hweb
  · simp [hname.1 hfile]
  · simpa [hname] using hfile
  · simpa [hname] using hfile

variable {u : Uri} {scheme : Text} {t : Text}

/-- In a scheme of the web the host has to be this machine. -/
theorem of_webPath? (hscheme : u.reference.scheme = some scheme) (hkind : schemeKind scheme = .web)
    (h : webPath? u.reference.authority u.reference.path = some t) :
    u.isLocal = true ∧ t = resolve u.authorityAndPath.2 := by
  simp only [webPath?] at h
  split_ifs at h with hlocal
  obtain rfl := Option.some.inj h
  have hparts : u.authorityAndPath = (some (((u.reference.authority.getD [] ++
      u.reference.path).dropWhile (· == '/')).takeWhile (· ≠ '/')),
      ((u.reference.authority.getD [] ++ u.reference.path).dropWhile (· == '/')).dropWhile
        (· ≠ '/')) := by
    rw [authorityAndPath, hscheme, Option.map_some, hkind]
  refine ⟨?_, by rw [hparts]⟩
  rw [isLocal, host, hparts, Bool.or_eq_true]
  exact .inr (beq_iff_eq.2 hlocal.1)

/-- In a scheme that is none of the web the host may be empty. -/
theorem of_otherPath? (hscheme : u.reference.scheme = some scheme)
    (hkind : schemeKind scheme = .other)
    (h : otherPath? u.reference.authority u.reference.path = some t) :
    u.reference.path.head? = some '/' ∧ u.isLocal = true ∧ t = resolve u.authorityAndPath.2 := by
  have hparts : u.authorityAndPath = (u.reference.authority, u.reference.path) := by
    rw [authorityAndPath, hscheme, Option.map_some, hkind]
  have hthis : Address.ofHost? "localhost".toList = some .localhost := by decide +kernel
  simp only [otherPath?] at h
  split_ifs at h with hlocal
  obtain rfl := Option.some.inj h
  refine ⟨hlocal.2, ?_, by rw [hparts]⟩
  rw [isLocal, host, hparts]
  cases hauthority : u.reference.authority with
  | none => rfl
  | some authority =>
    rw [hauthority] at hlocal
    obtain ⟨user, host, number, hcut⟩ : ∃ user host number,
        cutUserAndNumber authority = (user, host, number) := ⟨_, _, _, rfl⟩
    simp only [Option.map_some, Option.getD_some, hcut, Bool.or_eq_true, beq_iff_eq] at hlocal ⊢
    by_cases hempty : host = []
    · exact .inl hempty
    · rw [if_neg hempty, Bool.and_eq_true, beq_iff_eq] at hlocal
      exact .inr (hlocal.1.1 ▸ hthis)

/-- A URI of another scheme that leads to a path has a path of slashes and segments, and its host is
empty or this machine. -/
theorem exists_of_toPath? (hscheme : u.isFile = false) {p : Path} (h : u.toPath? = some p) :
    u.reference.scheme ≠ none ∧ u.isOpaque = false ∧ u.isLocal = true ∧
      p = ⟨closeDrive (Percent.decode (resolve u.authorityAndPath.2))⟩ := by
  simp only [toPath?, Option.bind_eq_bind, Option.bind_eq_some_iff, Option.pure_def] at h
  obtain ⟨scheme, hs, h⟩ := h
  rw [isFile_eq hs] at hscheme
  cases hkind : schemeKind scheme with
  | file =>
    rw [hkind] at hscheme
    cases hscheme
  | web =>
    rw [hkind] at h
    obtain ⟨t, ht, hp⟩ := Option.bind_eq_some_iff.1 h
    obtain ⟨hlocal, rfl⟩ := of_webPath? hs hkind ht
    refine ⟨by simp [hs], ?_, hlocal, (Option.some.inj hp).symm⟩
    simp [isOpaque, hs, hkind]
  | other =>
    rw [hkind] at h
    obtain ⟨t, ht, hp⟩ := Option.bind_eq_some_iff.1 h
    obtain ⟨hhead, hlocal, rfl⟩ := of_otherPath? hs hkind ht
    refine ⟨by simp [hs], ?_, hlocal, (Option.some.inj hp).symm⟩
    simp [isOpaque, hhead]

/-- A relative reference leads to no path, nor does a URI of another scheme whose path is opaque, or
whose host is not this machine. -/
theorem toPath?_eq_none_of_foreign (hscheme : u.isFile = false)
    (h : u.reference.scheme = none ∨ u.isOpaque = true ∨ u.isLocal = false) :
    u.toPath? = none := by
  cases hpath : u.toPath? with
  | none => rfl
  | some p =>
    obtain ⟨hnone, hopaque, hlocal, -⟩ := exists_of_toPath? hscheme hpath
    rcases h with h | h | h
    · exact absurd h hnone
    · rw [h] at hopaque
      cases hopaque
    · rw [h] at hlocal
      cases hlocal

/-! ## The same path in the scheme `file` -/

theorem names_decode_slash (rest : Text) :
    Path.names ⟨Percent.decode ('/' :: rest)⟩ = Path.names ⟨Percent.decode rest⟩ := by
  rw [decode_slash, Path.names_eq, pieces_cons_sep, Path.names_eq]
  rfl

/-- Slashes at the front of a path add no names. -/
theorem names_decode_dropWhile (t : Text) :
    Path.names ⟨Percent.decode (t.dropWhile (· == '/'))⟩ = Path.names ⟨Percent.decode t⟩ := by
  induction t with
  | nil => rfl
  | cons c rest ih =>
    by_cases hc : c = '/'
    · subst hc
      rw [List.dropWhile_cons_of_pos (by decide), ih, names_decode_slash]
    · rw [List.dropWhile_cons_of_neg (by simpa using hc)]

/-- Where a URI of another scheme leads to a path, the URI of the scheme `file` with its path, and
without a host, leads to the same. -/
theorem same_file_of_toPath? (hscheme : u.isFile = false) {p : Path} (h : u.toPath? = some p)
    {v : Uri} (hfile : v.isFile = true) (hhost : v.reference.authority = some [])
    (hpath : v.reference.path = u.authorityAndPath.2) :
    ∃ q, v.toPath? = some q ∧ p.same q = true := by
  obtain ⟨-, -, -, hp⟩ := exists_of_toPath? hscheme h
  obtain ⟨scheme, hs⟩ : ∃ scheme, v.reference.scheme = some scheme := by
    cases hs : v.reference.scheme with
    | none =>
      rw [isFile, hs] at hfile
      cases hfile
    | some scheme => exact ⟨scheme, rfl⟩
  have hkind : schemeKind scheme = .file := by simpa [isFile_eq hs] using hfile
  have hq : v.toPath? = some ⟨closeDrive (Percent.decode (resolveFile v.reference.path))⟩ := by
    have hfilePath :
        filePath? (some []) v.reference.path = some (resolveFile v.reference.path) := by
      rw [filePath?, if_neg (by decide), if_pos rfl]
    simp only [toPath?, hs, hkind, hhost, hfilePath, Option.bind_eq_bind, Option.bind_some]
    rfl
  refine ⟨_, hq, (Path.same_iff (isAbsolute_of_toPath? hq)).2 ⟨isAbsolute_of_toPath? h, ?_⟩⟩
  rw [hp, names_closeDrive, names_closeDrive, hpath, resolveFile, names_decode_slash,
    names_decode_dropWhile]

end Uri

end WorkspaceEditing
