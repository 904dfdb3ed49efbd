import WorkspaceEditing.Protocol.TextEdit
import WorkspaceEditing.Uri.FilePath

/-!
# Workspace edits

A workspace edit changes documents: it edits their texts, and it creates, renames and deletes
files. The changes come as a list, to be applied in order, or in an older form as text edits by
document.

## Main definitions

* `Protocol.DocumentChange` — one change, with its target.
* `Protocol.DocumentChanges` — a list of changes, as the server sent it.
* `Protocol.WorkspaceEdit` — a whole edit.
-/

namespace WorkspaceEditing

namespace Protocol

/-- The creation of a file. -/
structure CreateFile where
  uri : Uri
  overwrite : Bool
  deriving DecidableEq, Repr

/-- The renaming of a file or a directory. -/
structure RenameFile where
  oldUri : Uri
  newUri : Uri
  overwrite : Bool
  ignoreIfExists : Bool
  deriving DecidableEq, Repr

/-- The deletion of a file or a directory. -/
structure DeleteFile where
  uri : Uri
  recursive : Bool
  ignoreIfNotExists : Bool
  deriving DecidableEq, Repr

/-- The text edits of one document. The version that they were made for is not checked, and so it
is not kept. -/
structure DocumentEdit where
  uri : Uri
  edits : List TextEdit
  deriving DecidableEq, Repr

/-- One change of a workspace edit. -/
inductive DocumentChange where
  | edit (change : DocumentEdit)
  | create (change : CreateFile)
  | rename (change : RenameFile)
  | delete (change : DeleteFile)
  deriving DecidableEq, Repr

/-- The kind of a change, by name. -/
def DocumentChange.kind : DocumentChange → String
  | edit _ => "edit"
  | create _ => "create"
  | rename _ => "rename"
  | delete _ => "delete"

/-- The document that a change is about, as reports show it. -/
def DocumentChange.target : DocumentChange → String
  | edit change => change.uri.toString
  | create change => change.uri.toString
  | rename change => s!"{change.oldUri.toString} -> {change.newUri.toString}"
  | delete change => change.uri.toString

/-- Changes in the order of their application. A list of nothing but text edits is told apart from
one that may hold file operations. -/
inductive DocumentChanges where
  | edits (changes : List DocumentEdit)
  | operations (changes : List DocumentChange)
  deriving DecidableEq, Repr

/-- The changes, one by one. -/
def DocumentChanges.toList : DocumentChanges → List DocumentChange
  | edits changes => changes.map .edit
  | operations changes => changes

/-- An edit of a workspace: ordered changes, or text edits by document, or both, or neither. -/
structure WorkspaceEdit where
  documentChanges : Option DocumentChanges
  changes : Option (List DocumentEdit)
  deriving DecidableEq, Repr

end Protocol

end WorkspaceEditing
