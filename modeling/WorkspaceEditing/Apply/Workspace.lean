import WorkspaceEditing.Apply.Files

/-!
# Applying a workspace edit

The changes of a workspace edit are applied one by one, and each has its own outcome: a change that
fails does not keep the later ones from being applied, and nothing is taken back.

## Main definitions

* `Applier.applyChange` — one change.
* `Applier.applyWorkspaceEdit` — all changes of an edit, with a report.
-/

namespace WorkspaceEditing

open Protocol

namespace Applier

variable {σ : Type}

/-- Applies text edits to the buffer of a document, which is opened if need be. Without edits there
is nothing to do, not even to look for the document. -/
def applyDocumentEdit (a : Applier σ) (change : DocumentEdit) : ApplyAction σ ChangeStatus := do
  if change.edits = [] then return .applied
  let path ← pathOf change.uri
  let buffer ← .onHost (a.host.loadBuffer path)
  .onHost (a.applyTextEdits buffer change.edits)
  return .applied

/-- Applies one change. -/
def applyChange (a : Applier σ) : DocumentChange → ApplyAction σ ChangeStatus
  | .edit change => a.applyDocumentEdit change
  | .create change => a.createFile change
  | .rename change => a.renameFile change
  | .delete change => a.deleteFile change

/-- Applies changes in order, and gives the outcome of each, numbered from `index`. -/
def applyChanges (a : Applier σ) (index : Nat) :
    List DocumentChange → World σ → List Outcome × World σ
  | [], w => ([], w)
  | change :: rest, w =>
    let (result, w) := (a.applyChange change).result w
    let (outcomes, w) := a.applyChanges (index + 1) rest w
    ({ index, target := change.target, result } :: outcomes, w)

/-- Puts the edits of a document into a list that is in the order of the URIs. -/
def insertByUri (change : DocumentEdit) : List DocumentEdit → List DocumentEdit
  | [] => [change]
  | first :: rest =>
    if change.uri.text < first.uri.text then change :: first :: rest
    else first :: insertByUri change rest

/-- The changes that an edit asks for. Ordered changes take the place of text edits by document,
which are applied in the order of their URIs. -/
def changesOf (edit : WorkspaceEdit) : List DocumentChange :=
  match edit.documentChanges, edit.changes with
  | some changes, _ => changes.toList
  | none, some changes => (changes.foldr insertByUri []).map .edit
  | none, none => []

/-- Applies all changes of a workspace edit. -/
def applyWorkspaceEdit (a : Applier σ) (edit : WorkspaceEdit) (w : World σ) : Report × World σ :=
  let (outcomes, w) := a.applyChanges 0 (changesOf edit) w
  (⟨outcomes⟩, w)

end Applier

end WorkspaceEditing
