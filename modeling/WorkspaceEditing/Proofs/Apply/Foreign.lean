import WorkspaceEditing.Proofs.Apply.Rename
import WorkspaceEditing.Proofs.Uri.Scheme

/-!
# Changes of documents elsewhere

A change is refused if one of the URIs that it names leads to no file path, and then nothing is
done. That is so for relative references, and for URIs of other schemes than `file` with an opaque
path or with a host that is not this machine. A URI of another scheme that has a path of slashes and
segments, and no host, is not told apart from a file: the change is made to the file at its path.

## Main definitions

* `Protocol.DocumentChange.uris` — the URIs that a change cannot do without.

## Main results

* `Applier.exists_applyChange_error` — a change of what leads to no path is refused.
* `Applier.applyChange_foreign` — which URIs of other schemes lead to no path, and where the others
  lead.
* `Applier.applyChange_foreign_deletes` — a deletion of a document elsewhere deletes a file here.
-/

namespace WorkspaceEditing

open Protocol

/-- The URIs that a change cannot do without. Without text edits no document is looked for. -/
def Protocol.DocumentChange.uris : DocumentChange → List Uri
  | .edit change => if change.edits = [] then [] else [change.uri]
  | .create change => [change.uri]
  | .rename change => [change.oldUri, change.newUri]
  | .delete change => [change.uri]

namespace Applier

variable {σ : Type} {change : DocumentChange}

/-- A change one of whose URIs leads to no path is refused for such a URI, and nothing is done. -/
theorem exists_applyChange_error (a : Applier σ) (w : World σ) {u : Uri} (hu : u ∈ change.uris)
    (hpath : u.toPath? = none) :
    ∃ v ∈ change.uris, v.toPath? = none ∧ a.applyChange change w = .error (.invalidUri v) w := by
  cases change with
  | edit change =>
    by_cases hedits : change.edits = []
    · simp [DocumentChange.uris, hedits] at hu
    · simp only [DocumentChange.uris, if_neg hedits, List.mem_singleton] at hu ⊢
      subst hu
      refine ⟨_, rfl, hpath, ?_⟩
      rw [applyChange, applyDocumentEdit, if_neg hedits]
      exact bind_of_error (pathOf_error hpath) _
  | create change =>
    obtain rfl := List.mem_singleton.1 hu
    exact ⟨_, List.mem_singleton_self _, hpath, bind_of_error (pathOf_error hpath) _⟩
  | delete change =>
    obtain rfl := List.mem_singleton.1 hu
    exact ⟨_, List.mem_singleton_self _, hpath, bind_of_error (pathOf_error hpath) _⟩
  | rename change =>
    -- the old path is looked for first
    cases hold : change.oldUri.toPath? with
    | none =>
      exact ⟨_, List.mem_cons_self, hold, bind_of_error (pathOf_error hold) _⟩
    | some oldPath =>
      have hnew : change.newUri.toPath? = none := by
        simp only [DocumentChange.uris, List.mem_cons, List.not_mem_nil, or_false] at hu
        rcases hu with rfl | rfl
        · rw [hold] at hpath
          cases hpath
        · exact hpath
      exact ⟨_, List.mem_cons_of_mem _ (List.mem_singleton_self _), hnew,
        (bind_of_ok (pathOf_ok hold) _).trans (bind_of_error (pathOf_error hnew) _)⟩

/-- Among the URIs of other schemes than `file`, relative references, those with an opaque path and
those whose host is not this machine lead to no path, and no change of them does anything. Where
another one leads to a path, the scheme is not looked at: the URI of the scheme `file` with the same
path leads there too. -/
theorem applyChange_foreign (a : Applier σ) (w : World σ) {u : Uri} (hscheme : u.isFile = false) :
    (u.reference.scheme = none ∨ u.isOpaque = true ∨ u.isLocal = false → u.toPath? = none) ∧
      (u.toPath? = none → ∀ change : DocumentChange, u ∈ change.uris → ∃ v ∈ change.uris,
        v.toPath? = none ∧ a.applyChange change w = .error (.invalidUri v) w) ∧
      ∀ p, u.toPath? = some p → ∀ v : Uri, v.isFile = true → v.reference.authority = some [] →
        v.reference.path = u.authorityAndPath.2 → ∃ q, v.toPath? = some q ∧ p.same q = true :=
  ⟨Uri.toPath?_eq_none_of_foreign hscheme,
    fun hpath _ hu => exists_applyChange_error a w hu hpath,
    fun _ hpath _ hfile hhost heq => Uri.same_file_of_toPath? hscheme hpath hfile hhost heq⟩

/-- The file behind a scheme that nobody has registered is the one behind the scheme `file`, while
mail addresses lead to none. -/
theorem applyChange_foreign_schemes :
    let foo : Uri := ⟨"foo:/a/b".toList, by decide +kernel⟩
    let mail : Uri := ⟨"mailto:a@b".toList, by decide +kernel⟩
    let file : Uri := ⟨"file:///a/b".toList, by decide +kernel⟩
    let a : Applier Editor := ⟨Editor.asHost, .standard, .utf16⟩
    let w : World Editor := ⟨.empty, ⟨[]⟩⟩
    foo.isFile = false ∧ foo.toPath? = some (.ofString "/a/b") ∧
      (∃ q, file.toPath? = some q ∧ (Path.ofString "/a/b").same q = true) ∧
      mail.isFile = false ∧ mail.toPath? = none ∧
      ∃ v ∈ [mail], v.toPath? = none ∧
        a.applyChange (.create ⟨mail, true⟩) w = .error (.invalidUri v) w := by
  intro foo mail file a w
  have hfoo : foo.isFile = false := by decide +kernel
  have hmail : mail.isFile = false := by decide +kernel
  have hpath : foo.toPath? = some (.ofString "/a/b") := by decide +kernel
  obtain ⟨-, -, hsame⟩ := applyChange_foreign a w hfoo
  obtain ⟨hnone, herror, -⟩ := applyChange_foreign a w hmail
  have hopaque : mail.toPath? = none := hnone (.inr (.inl (by decide +kernel)))
  exact ⟨hfoo, hpath, hsame _ hpath file (by decide +kernel) (by decide +kernel)
      (by decide +kernel), hmail, hopaque,
    herror hopaque (.create ⟨mail, true⟩) (List.mem_singleton_self mail)⟩

/-- The deletion of a document that some other scheme names deletes the local file at its path. -/
theorem applyChange_foreign_deletes :
    let uri : Uri := ⟨"git:/a".toList, by decide +kernel⟩
    let a : Applier Editor := ⟨Editor.asHost, .standard, .utf16⟩
    let w : World Editor := ⟨.empty, ⟨[([[0x61]], .file ⟨#[0x31]⟩)]⟩⟩
    let w' := left (a.applyChange (.delete ⟨uri, false, false⟩) w)
    uri.isFile = false ∧ uri.toPath? = some (.ofString "/a") ∧
      w.disk.get? [[0x61]] = some (.file ⟨#[0x31]⟩) ∧ w'.disk.get? [[0x61]] = none :=
  ⟨by decide +kernel, by decide +kernel, by decide +kernel, by decide +kernel⟩

end Applier

end WorkspaceEditing
