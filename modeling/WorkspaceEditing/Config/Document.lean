import WorkspaceEditing.Config
import WorkspaceEditing.Toml.Document

/-!
# Configuration files

A configuration is written as a TOML document with the settings as its keys. A flag is a truth
value. An encoding is a string, or a table with the name of the encoding as its only key and nothing
under it.

## Main definitions

* `Setting.ofNode?` — the setting that a value stands for.
* `Config.ofToml?` — the configuration of a document.
-/

namespace WorkspaceEditing

/-- The encoding of a name. -/
def Setting.named? (name : Text) : Option Setting :=
  (Encoding.ofName? (String.ofList name)).map .encoding

/-- The setting that a value stands for. -/
def Setting.ofNode? : Toml.Node → Option Setting
  | .boolean value => some (.flag value)
  | .string name => named? name
  | .table _ [(name, .table _ [])] => named? name
  | .table _ [(name, .emptyArray)] => named? name
  | _ => none

/-- The configuration of a document, if it is one: every key is a setting, and every value of its
setting's kind. -/
def Config.ofToml? (t : Text) : Option Config := do
  let settings ← (← Toml.document? t).mapM fun (name, node) => do
    pure (String.ofList name, ← Setting.ofNode? node)
  Config.ofSettings? settings

end WorkspaceEditing
