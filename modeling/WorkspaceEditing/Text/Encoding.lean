import WorkspaceEditing.Text.Splice

/-!
# Offset encodings

A language server counts the characters of a line in the code units of an encoding that it has
agreed on: bytes, UTF-16 units or code points. A buffer counts bytes. Reading a server's offset
never fails: one past the end of the line is the end of the line, and one inside a character is
the start of that character.

## Main definitions

* `Encoding` — the three ways of counting, with their names.
* `Encoding.units` — the length of a text in code units.
* `Encoding.column` — the byte column at a code-unit offset of a line.
-/

namespace WorkspaceEditing

/-- What a language server counts offsets in. -/
inductive Encoding where
  | utf8
  | utf16
  | utf32
  deriving DecidableEq, Repr

namespace Encoding

/-- The encoding of a server that has not agreed on another. -/
def standard : Encoding := .utf16

/-- The name of an encoding, in the protocol and in settings. -/
def name : Encoding → String
  | .utf8 => "utf-8"
  | .utf16 => "utf-16"
  | .utf32 => "utf-32"

/-- The encoding of a name. Names are spelled exactly. -/
def ofName? (s : String) : Option Encoding :=
  [utf8, utf16, utf32].find? fun e => e.name == s

@[simp] theorem ofName?_name (e : Encoding) : ofName? e.name = some e := by cases e <;> rfl

/-- The number of code units of a character. -/
def charLength : Encoding → Char → Nat
  | .utf8, c => c.utf8Size
  | .utf16, c => if c.val < 0x10000 then 1 else 2
  | .utf32, _ => 1

/-- The number of code units of a text. -/
def units (e : Encoding) : Text → Nat
  | [] => 0
  | c :: rest => e.charLength c + units e rest

theorem charLength_pos (e : Encoding) (c : Char) : 0 < e.charLength c := by
  cases e with
  | utf8 => exact Char.utf8Size_pos c
  | utf16 => simp only [charLength]; split <;> simp
  | utf32 => simp [charLength]

@[simp] theorem units_utf8 (t : Text) : utf8.units t = t.byteLength := by
  induction t with
  | nil => rfl
  | cons c t ih => simp [units, charLength, ih]

@[simp] theorem units_append (e : Encoding) (s t : Text) :
    e.units (s ++ t) = e.units s + e.units t := by
  induction s with
  | nil => simp [units]
  | cons c s ih => simp [units, ih, Nat.add_assoc]

/-! ## Columns -/

/-- Whether a character of the text ends, or the text begins, at a byte offset. -/
def isCharBoundary : Text → Nat → Bool
  | _, 0 => true
  | [], _ + 1 => false
  | c :: rest, n + 1 => c.utf8Size ≤ n + 1 && isCharBoundary rest (n + 1 - c.utf8Size)

/-- The last character boundary at or before a byte offset. -/
def lastBoundary (t : Text) : Nat → Nat
  | 0 => 0
  | n + 1 => if isCharBoundary t (n + 1) then n + 1 else lastBoundary t n

/-- Counts code units along the text and stops before the character that would pass `offset`. -/
def columnByScan (e : Encoding) : Text → Nat → Nat
  | [], _ => 0
  | c :: rest, offset =>
    if e.charLength c ≤ offset then c.utf8Size + columnByScan e rest (offset - e.charLength c)
    else 0

/-- The byte column of the code-unit offset in a line. Byte offsets need no counting: they are cut
at the end of the line and moved back to the start of their character. -/
def column (e : Encoding) (line : Text) (offset : Nat) : Nat :=
  match e with
  | .utf8 => lastBoundary line (min offset line.byteLength)
  | _ => columnByScan e line offset

end Encoding

end WorkspaceEditing
