import WorkspaceEditing.Protocol.Command

/-!
# Reading protocol values from JSON

A value is read if it has all that it needs, each part of the right kind; a field that a record does
not have is ignored. Where a value may have one of several shapes, the first shape that fits counts:
a list of changes is one of text edits if every entry can be read so, a change is a file operation
before it is a text edit, and an action is a command before it is a code action.

## Main definitions

* `Json.textEdit?` — a text edit.
* `Json.documentChange?`, `Json.documentChanges?`, `Json.workspaceEdit?` — changes.
* `Json.command?`, `Json.action?` — commands and code actions.
-/

namespace WorkspaceEditing

open Protocol

namespace Json

/-! ## Edits of a text -/

/-- A place in a document. -/
def position? (json : Json) : Option Position := do
  match ← json.record? ["line", "character"] with
  | [line, character] =>
    pure ⟨← required? unsigned32? line, ← required? unsigned32? character⟩
  | _ => none

/-- A range of a document. -/
def range? (json : Json) : Option Range := do
  match ← json.record? ["start", "end"] with
  | [start, stop] => pure ⟨← required? position? start, ← required? position? stop⟩
  | _ => none

/-- A text edit. An annotation that it may carry is ignored. -/
def textEdit? (json : Json) : Option TextEdit := do
  match ← json.record? ["range", "newText"] with
  | [range, newText] =>
    pure ⟨← required? range? range, (← required? string? newText).toList⟩
  | _ => none

/-- A URI reference. -/
def uri? (json : Json) : Option Uri := json.string?.bind Uri.ofString?

/-- The document of text edits, by its URI. Its version has to be a version, and is not kept. -/
def versionedDocument? (json : Json) : Option Uri := do
  match ← json.record? ["uri", "version"] with
  | [uri, version] =>
    let _ ← optional? signed32? version
    required? uri? uri
  | _ => none

/-- Text edits of a document. -/
def documentEdit? (json : Json) : Option DocumentEdit := do
  match ← json.record? ["textDocument", "edits"] with
  | [document, edits] =>
    pure ⟨← required? versionedDocument? document, ← required? (list? textEdit?) edits⟩
  | _ => none

/-! ## File operations -/

/-- A flag that is off if it is absent or `null`. -/
def flag? (field : Option Json) : Option Bool := (optional? bool? field).map (·.getD false)

/-- Two flags of the options of a file operation, each off if it is absent. -/
def flags? (first second : String) (json : Json) : Option (Bool × Bool) := do
  match ← json.record? [first, second] with
  | [a, b] => pure (← flag? a, ← flag? b)
  | _ => none

/-- The options of a deletion, which may be annotated. -/
def deleteOptions? (json : Json) : Option (Bool × Bool) := do
  match ← json.record? ["recursive", "ignoreIfNotExists", "annotationId"] with
  | [recursive, ignoreIfNotExists, annotation] =>
    let _ ← optional? string? annotation
    pure (← flag? recursive, ← flag? ignoreIfNotExists)
  | _ => none

/-- The creation of a file. -/
def createFile? (json : Json) : Option CreateFile := do
  match ← json.record? ["uri", "options", "annotationId"] with
  | [uri, options, annotation] =>
    let _ ← optional? string? annotation
    let uri ← required? uri? uri
    let options ← optional? (flags? "overwrite" "ignoreIfExists") options
    pure { uri, overwrite := (options.getD (false, false)).1 }
  | _ => none

/-- The renaming of a file. -/
def renameFile? (json : Json) : Option RenameFile := do
  match ← json.record? ["oldUri", "newUri", "options", "annotationId"] with
  | [oldUri, newUri, options, annotation] =>
    let _ ← optional? string? annotation
    let oldUri ← required? uri? oldUri
    let newUri ← required? uri? newUri
    let (overwrite, ignoreIfExists) :=
      (← optional? (flags? "overwrite" "ignoreIfExists") options).getD (false, false)
    pure { oldUri, newUri, overwrite, ignoreIfExists }
  | _ => none

/-- The deletion of a file. -/
def deleteFile? (json : Json) : Option DeleteFile := do
  match ← json.record? ["uri", "options"] with
  | [uri, options] =>
    let uri ← required? uri? uri
    let (recursive, ignoreIfNotExists) := (← optional? deleteOptions? options).getD (false, false)
    pure { uri, recursive, ignoreIfNotExists }
  | _ => none

/-- The kind of a file operation, by name or by number, and the operation without it. -/
def cutKind? : Json → Option (Json × Json)
  | object fields => (field? fields "kind").map fun kind => (kind, object fields)
  | array (kind :: rest) => some (kind, array rest)
  | _ => none

/-- A file operation. -/
def fileOperation? (json : Json) : Option DocumentChange := do
  let (kind, operation) ← cutKind? json
  match kind with
  | string "create" | integer 0 => operation.createFile?.map .create
  | string "rename" | integer 1 => operation.renameFile?.map .rename
  | string "delete" | integer 2 => operation.deleteFile?.map .delete
  | _ => none

/-! ## Workspace edits -/

/-- One change: a file operation, or else text edits of a document. -/
def documentChange? (json : Json) : Option DocumentChange :=
  json.fileOperation? <|> json.documentEdit?.map .edit

/-- A list of changes. -/
def documentChanges? (json : Json) : Option DocumentChanges :=
  (json.list? documentEdit?).map .edits <|> (json.list? documentChange?).map .operations

/-- Text edits by document. -/
def editsByUri? : Json → Option (List DocumentEdit)
  | object fields => fields.mapM fun (uri, edits) => do
    pure ⟨← Uri.ofString? uri, ← edits.list? textEdit?⟩
  | _ => none

/-- The description of an annotation, which has to be one, and is not kept. -/
def annotation? (json : Json) : Option Unit := do
  match ← json.record? ["label", "needsConfirmation", "description"] with
  | [label, needsConfirmation, description] =>
    let _ ← required? string? label
    let _ ← optional? bool? needsConfirmation
    let _ ← optional? string? description
  | _ => none

/-- Annotations by name. -/
def annotations? : Json → Option Unit
  | object fields => do let _ ← fields.mapM fun field => annotation? field.2
  | _ => none

/-- An edit of a workspace. -/
def workspaceEdit? (json : Json) : Option WorkspaceEdit := do
  match ← json.record? ["changes", "documentChanges", "changeAnnotations"] with
  | [changes, documentChanges, annotations] =>
    let _ ← optional? annotations? annotations
    pure {
      changes := ← optional? editsByUri? changes
      documentChanges := ← optional? documentChanges? documentChanges }
  | _ => none

/-! ## Commands and code actions -/

/-- A command. -/
def command? (json : Json) : Option Command := do
  match ← json.record? ["title", "command", "arguments"] with
  | [title, command, arguments] =>
    pure ⟨← required? string? title, ← required? string? command,
      ← optional? (list? some) arguments⟩
  | _ => none

/-- The place of a document that a diagnostic refers to. -/
def location? (json : Json) : Option Unit := do
  match ← json.record? ["uri", "range"] with
  | [uri, range] =>
    let _ ← required? uri? uri
    let _ ← required? range? range
  | _ => none

/-- A message that belongs to a diagnostic. -/
def relatedInformation? (json : Json) : Option Unit := do
  match ← json.record? ["location", "message"] with
  | [location, message] =>
    let _ ← required? location? location
    let _ ← required? string? message
  | _ => none

/-- The code of a diagnostic, a number or a string. -/
def diagnosticCode? (json : Json) : Option Unit :=
  json.signed32?.map (fun _ => ()) <|> json.string?.map (fun _ => ())

/-- Where a diagnostic is explained. -/
def codeDescription? (json : Json) : Option Unit := do
  match ← json.record? ["href"] with
  | [href] => let _ ← required? uri? href
  | _ => none

/-- A diagnostic that an action belongs to, which has to be one, and is not kept. -/
def diagnostic? (json : Json) : Option Unit := do
  match ← json.record? ["range", "severity", "code", "codeDescription", "source", "message",
      "relatedInformation", "tags", "data"] with
  | [range, severity, code, description, source, message, related, tags, _] =>
    let _ ← required? range? range
    let _ ← optional? signed32? severity
    let _ ← optional? diagnosticCode? code
    let _ ← optional? codeDescription? description
    let _ ← optional? string? source
    let _ ← required? string? message
    let _ ← optional? (list? relatedInformation?) related
    let _ ← optional? (list? signed32?) tags
  | _ => none

/-- Why an action is disabled. -/
def disabled? (json : Json) : Option String := do
  match ← json.record? ["reason"] with
  | [reason] => required? string? reason
  | _ => none

/-- A code action. -/
def codeAction? (json : Json) : Option CodeAction := do
  match ← json.record? ["title", "kind", "diagnostics", "edit", "command", "isPreferred",
      "disabled", "data"] with
  | [title, kind, diagnostics, edit, command, isPreferred, disabled, _] =>
    let title ← required? string? title
    let _ ← optional? string? kind
    let _ ← optional? (list? diagnostic?) diagnostics
    let _ ← optional? bool? isPreferred
    pure {
      title
      edit := ← optional? workspaceEdit? edit
      command := ← optional? command? command
      disabled := ← optional? disabled? disabled }
  | _ => none

/-- A command, or else a code action. -/
def action? (json : Json) : Option Action :=
  json.command?.map .command <|> json.codeAction?.map .codeAction

end Json

end WorkspaceEditing
