import WorkspaceEditing.Text.Lines
import WorkspaceEditing.Uri.Percent

/-!
# TOML: blanks, strings and keys

The parts of a TOML document that stand within a line, and the strings that may run over several.
Each reader takes its part off the front of a text, and gives what is left.

## Main definitions

* `Toml.endLine?` — the end of a line, with a comment before it.
* `Toml.string?` — a string in any of its four forms.
* `Toml.keyPath?` — a key, with dots between its parts.
-/

namespace WorkspaceEditing

namespace Toml

/-- Takes a value off the front of a text. -/
abbrev Reader (α : Type) := Text → Option (α × Text)

/-! ## Blanks and comments -/

/-- A character that separates within a line. -/
def isBlank (c : Char) : Bool := c == ' ' || c == '\t'

/-- A character that may stand in a comment, and between the quotes of a string: no control
character but the tab. -/
def isPlain (c : Char) : Bool := c == '\t' || (0x20 ≤ c.val && c.val != 0x7F)

/-- What follows the blanks. -/
def skipBlanks (t : Text) : Text := t.dropWhile isBlank

/-- What follows a line break, if there is one. -/
def newline? : Text → Option Text
  | '\n' :: rest => some rest
  | '\r' :: '\n' :: rest => some rest
  | _ => none

/-- What follows a comment, if there is one. -/
def skipComment : Text → Text
  | '#' :: rest => rest.dropWhile isPlain
  | t => t

/-- What follows the line, if nothing is left of it but blanks and a comment. -/
def endLine? (t : Text) : Option Text :=
  match skipComment (skipBlanks t) with
  | [] => some []
  | rest => newline? rest

/-- What follows the blanks and line breaks. -/
def skipSpace : Text → Text
  | '\r' :: '\n' :: rest => skipSpace rest
  | c :: rest => if isBlank c || c == '\n' then skipSpace rest else c :: rest
  | [] => []

/-! ## Strings -/

/-- A character by its number in hexadecimal digits, `count` of them. -/
def numbered? (count : Nat) : Reader Char := fun t =>
  let digits := t.take count
  let number := digits.foldl (fun n c => 16 * n + (Percent.digitValue? c).getD 0) 0
  if digits.length = count ∧ digits.all Percent.isHexDigit ∧ number.isValidChar then
    some (Char.ofNat number, t.drop count)
  else none

/-- The character that an escape stands for, behind its backslash. -/
def escape? : Reader Char
  | 'b' :: rest => some ('\x08', rest)
  | 't' :: rest => some ('\t', rest)
  | 'n' :: rest => some ('\n', rest)
  | 'f' :: rest => some ('\x0c', rest)
  | 'r' :: rest => some ('\r', rest)
  | 'e' :: rest => some ('\x1b', rest)
  | '"' :: rest => some ('"', rest)
  | '\\' :: rest => some ('\\', rest)
  | 'x' :: rest => numbered? 2 rest
  | 'u' :: rest => numbered? 4 rest
  | 'U' :: rest => numbered? 8 rest
  | _ => none

/-- The rest of a string with escapes, up to its quote. -/
def basicRest? : Nat → Reader Text
  | 0, _ => none
  | _, [] => none
  | fuel + 1, c :: rest =>
    if c = '"' then some ([], rest)
    else if c = '\\' then do
      let (escaped, rest) ← escape? rest
      let (more, rest) ← basicRest? fuel rest
      pure (escaped :: more, rest)
    else if isPlain c then do
      let (more, rest) ← basicRest? fuel rest
      pure (c :: more, rest)
    else none

/-- The rest of a string without escapes, up to its apostrophe. -/
def literalRest? : Reader Text
  | [] => none
  | c :: rest =>
    if c = '\x27' then some ([], rest)
    else if isPlain c then (literalRest? rest).map fun (more, rest) => (c :: more, rest)
    else none

/-- The quotes that stand before the three that close a long string, at most two. -/
def extraQuotes (quote : Char) (rest : Text) : Text × Text :=
  let extra := (rest.take 2).takeWhile (· = quote)
  (extra, rest.drop extra.length)

/-- The rest of a long string with escapes. A backslash at the end of a line takes it away, with
the blanks and line breaks that follow. -/
def longBasicRest? : Nat → Reader Text
  | 0, _ => none
  | _, [] => none
  | _, '"' :: '"' :: '"' :: rest => some (extraQuotes '"' rest)
  | fuel + 1, '\\' :: rest =>
    match newline? (skipBlanks rest) with
    | some rest => longBasicRest? fuel (skipSpace rest)
    | none => do
      let (escaped, rest) ← escape? rest
      let (more, rest) ← longBasicRest? fuel rest
      pure (escaped :: more, rest)
  | fuel + 1, '\r' :: '\n' :: rest => do
    let (more, rest) ← longBasicRest? fuel rest
    pure ('\n' :: more, rest)
  | fuel + 1, c :: rest =>
    if isPlain c || c == '\n' then do
      let (more, rest) ← longBasicRest? fuel rest
      pure (c :: more, rest)
    else none

/-- The rest of a long string without escapes. -/
def longLiteralRest? : Nat → Reader Text
  | 0, _ => none
  | _, [] => none
  | _, '\x27' :: '\x27' :: '\x27' :: rest => some (extraQuotes '\x27' rest)
  | fuel + 1, '\r' :: '\n' :: rest => do
    let (more, rest) ← longLiteralRest? fuel rest
    pure ('\n' :: more, rest)
  | fuel + 1, c :: rest =>
    if isPlain c || c == '\n' then do
      let (more, rest) ← longLiteralRest? fuel rest
      pure (c :: more, rest)
    else none

/-- What follows a line break right behind the quotes of a long string. -/
def skipFirstBreak (t : Text) : Text := (newline? t).getD t

/-- A string in any of its four forms. -/
def string? : Reader Text
  | '"' :: '"' :: '"' :: rest => longBasicRest? (rest.length + 1) (skipFirstBreak rest)
  | '"' :: rest => basicRest? (rest.length + 1) rest
  | '\x27' :: '\x27' :: '\x27' :: rest => longLiteralRest? (rest.length + 1) (skipFirstBreak rest)
  | '\x27' :: rest => literalRest? rest
  | _ => none

/-! ## Keys -/

/-- A character of a key without quotes. -/
def isKeyChar (c : Char) : Bool := c.isAlphanum || c == '_' || c == '-'

/-- One part of a key, with quotes or without. -/
def key? : Reader Text
  | '"' :: rest => basicRest? (rest.length + 1) rest
  | '\x27' :: rest => literalRest? rest
  | t =>
    let name := t.takeWhile isKeyChar
    if name = [] then none else some (name, t.dropWhile isKeyChar)

/-- A key, its parts with dots between them, and the blanks behind it. -/
def keyPath? (t : Text) : Option (List Text × Text) := go (t.length + 1) t
where
  go : Nat → Text → Option (List Text × Text)
    | 0, _ => none
    | fuel + 1, t => do
      let (key, rest) ← key? t
      match skipBlanks rest with
      | '.' :: rest =>
        let (more, rest) ← go fuel (skipBlanks rest)
        pure (key :: more, rest)
      | rest => pure ([key], rest)

end Toml

end WorkspaceEditing
