import WorkspaceEditing.Text.Lines

/-!
# TOML: tables

A document fills a table line by line. Which tables a later line may still extend depends on how
they came about: one that a header has named is closed to other headers of its name, one that dots
have made is open to dots only, and one in braces is complete.

## Main definitions

* `Toml.Node` — a value, or a table with how it came about.
* `Toml.define?` — a table with a value put at a key.
* `Toml.declare?` — a table with another opened by a header.
-/

namespace WorkspaceEditing

namespace Toml

/-- How a table came about. -/
inductive Origin where
  /-- It is named by a header. -/
  | header
  /-- A header names a table inside it. -/
  | implied
  /-- A key with dots leads through it. -/
  | dotted
  /-- It is written in braces. -/
  | inline
  deriving DecidableEq, Repr

/-- A value of a document. -/
inductive Node where
  | boolean (value : Bool)
  | string (value : Text)
  | emptyArray
  | table (origin : Origin) (entries : List (Text × Node))
  deriving Repr

/-- The entries of a table, in the order in which they were written. -/
abbrev Entries := List (Text × Node)

/-- What stands at a key. -/
def Entries.get? (entries : Entries) (key : Text) : Option Node :=
  (entries.find? fun entry => entry.1 = key).map (·.2)

/-- The entries with another node at a key, behind the others if the key is new. -/
def Entries.put (entries : Entries) (key : Text) (node : Node) : Entries :=
  if entries.any fun entry => entry.1 = key then
    entries.map fun entry => if entry.1 = key then (key, node) else entry
  else entries ++ [(key, node)]

/-- Puts a value at a key, which must be free. The tables that its dots lead through are made by
dots alone. -/
def define? (value : Node) : List Text → Entries → Option Entries
  | [], _ => none
  | key :: rest, entries =>
    if rest = [] then
      if (entries.get? key).isSome then none else some (entries.put key value)
    else match entries.get? key with
      | none => (define? value rest []).map fun inner => entries.put key (.table .dotted inner)
      | some (.table .dotted inner) =>
        (define? value rest inner).map fun inner => entries.put key (.table .dotted inner)
      | some _ => none

/-- Opens the table that a header names. It must be new, or implied by a header before. -/
def declare? : List Text → Entries → Option Entries
  | [], _ => none
  | key :: rest, entries =>
    if rest = [] then
      match entries.get? key with
      | none => some (entries.put key (.table .header []))
      | some (.table .implied inner) => some (entries.put key (.table .header inner))
      | some _ => none
    else match entries.get? key with
      | none => (declare? rest []).map fun inner => entries.put key (.table .implied inner)
      | some (.table .inline _) => none
      | some (.table origin inner) =>
        (declare? rest inner).map fun inner => entries.put key (.table origin inner)
      | some _ => none

/-- Changes the table that a header has opened. -/
def within? (change : Entries → Option Entries) : List Text → Entries → Option Entries
  | [], entries => change entries
  | key :: rest, entries =>
    match entries.get? key with
    | some (.table origin inner) =>
      (within? change rest inner).map fun inner => entries.put key (.table origin inner)
    | _ => none

end Toml

end WorkspaceEditing
