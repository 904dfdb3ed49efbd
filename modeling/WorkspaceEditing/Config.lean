import WorkspaceEditing.Text.Encoding

/-!
# Configuration

How edits are applied where the server does not say: four settings, each with a default.

## Main definitions

* `Config` — the settings.
* `Config.ofSettings?` — a configuration from named values.
-/

namespace WorkspaceEditing

/-- The settings for applying edits. -/
structure Config where
  /-- The encoding of a server with which none was agreed on. -/
  offsetEncoding : Encoding
  /-- Whether the cursor of the edited buffer is put where its text has moved. -/
  restoreCursor : Bool
  /-- Whether letter marks that were dropped are set again. -/
  restoreMarks : Bool
  /-- Whether an empty last line that an edit leaves behind is removed, where writing the buffer
  adds its line break. -/
  trimFinalNewline : Bool
  deriving DecidableEq, Repr

/-- The value of a setting. -/
inductive Setting where
  | flag (value : Bool)
  | encoding (value : Encoding)
  deriving DecidableEq, Repr

namespace Config

/-- The configuration in which nothing is set. -/
def standard : Config where
  offsetEncoding := .standard
  restoreCursor := true
  restoreMarks := true
  trimFinalNewline := true

/-- The names of the settings. -/
def names : List String :=
  ["offset-encoding", "restore-cursor", "restore-marks", "trim-final-newline"]

/-- Changes the setting of a name. There has to be one, and the value has to be of its kind. -/
def set? (c : Config) : String → Setting → Option Config
  | "offset-encoding", .encoding value => some { c with offsetEncoding := value }
  | "restore-cursor", .flag value => some { c with restoreCursor := value }
  | "restore-marks", .flag value => some { c with restoreMarks := value }
  | "trim-final-newline", .flag value => some { c with trimFinalNewline := value }
  | _, _ => none

/-- The configuration with the given settings, and the others as they are by default. -/
def ofSettings? (settings : List (String × Setting)) : Option Config :=
  settings.foldlM (fun c setting => c.set? setting.1 setting.2) standard

end Config

end WorkspaceEditing
