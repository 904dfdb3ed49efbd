import WorkspaceEditing.Toml.Table
import WorkspaceEditing.Toml.Token

/-!
# TOML: documents

A document is a sequence of lines: each is empty, defines the value of a key, or is a header that
names the table of the lines below it. Of values, those are read that a setting can have: truth
values, strings, empty arrays, and tables of them. A document with a number, a date or a longer
array is refused, and so is one with an array of tables.

## Main definitions

* `Toml.value?` — a value.
* `Toml.document?` — the table of a document.
-/

namespace WorkspaceEditing

namespace Toml

/-- What follows the blanks, comments and line breaks between the parts of an array or a table in
braces. -/
def skipFiller : Nat → Text → Text
  | 0, t => t
  | fuel + 1, t =>
    match skipComment (skipBlanks t) with
    | [] => []
    | rest =>
      match newline? rest with
      | some rest => skipFiller fuel rest
      | none => rest

/-- The text behind a word at the front. -/
def word? (word : String) (t : Text) : Option Text := word.toList.isPrefixOf? t

mutual

/-- A value. -/
def value? : Nat → Reader Node
  | 0, _ => none
  | fuel + 1, t =>
    match t with
    | '{' :: rest => do
      let (entries, rest) ← members? fuel [] (skipFiller rest.length rest)
      pure (.table .inline entries, rest)
    | '[' :: rest =>
      match skipFiller rest.length rest with
      | ']' :: rest => some (.emptyArray, rest)
      | _ => none
    | t =>
      match word? "true" t, word? "false" t with
      | some rest, _ => some (.boolean true, rest)
      | _, some rest => some (.boolean false, rest)
      | none, none => (string? t).map fun (s, rest) => (.string s, rest)

/-- The rest of a table in braces, behind the entries that are read already. -/
def members? : Nat → Entries → Reader Entries
  | 0, _, _ => none
  | fuel + 1, entries, t =>
    match t with
    | '}' :: rest => some (entries, rest)
    | t => do
      let (path, rest) ← keyPath? t
      match skipFiller rest.length rest with
      | '=' :: rest =>
        let (value, rest) ← value? fuel (skipFiller rest.length rest)
        let entries ← define? value path entries
        match skipFiller rest.length rest with
        | '}' :: rest => pure (entries, rest)
        | ',' :: rest => members? fuel entries (skipFiller rest.length rest)
        | _ => none
      | _ => none

end

/-- The line of a header, behind its bracket. -/
def header? (t : Text) : Option (List Text × Text) := do
  let (path, rest) ← keyPath? (skipBlanks t)
  match rest with
  | ']' :: rest => pure (path, ← endLine? rest)
  | _ => none

/-- The line that defines a key. -/
def assignment? (t : Text) : Option ((List Text × Node) × Text) := do
  let (path, rest) ← keyPath? t
  match rest with
  | '=' :: rest =>
    let (value, rest) ← value? (rest.length + 1) (skipBlanks rest)
    pure ((path, value), ← endLine? rest)
  | _ => none

/-- Reads lines into a table. The lines define keys of the table that `current` leads to. -/
def lines? : Nat → List Text → Entries → Text → Option Entries
  | 0, _, _, _ => none
  | fuel + 1, current, entries, t =>
    match skipBlanks t with
    | [] => some entries
    | '[' :: rest => do
      let (path, rest) ← header? rest
      lines? fuel path (← declare? path entries) rest
    | t =>
      match endLine? t with
      | some rest => lines? fuel current entries rest
      | none => do
        let ((path, value), rest) ← assignment? t
        lines? fuel current (← within? (define? value path) current entries) rest

/-- The table of a document. A byte order mark in front of it is skipped. -/
def document? (t : Text) : Option Entries :=
  lines? (t.length + 1) [] [] (if t.head? = some '\ufeff' then t.drop 1 else t)

end Toml

end WorkspaceEditing
