import WorkspaceEditing.Pieces

/-!
# Texts, line breaks and lines

A text is a list of characters. Inside a buffer a line ends at a line feed and nowhere else. Text
that arrives from outside may also use a carriage return, alone or before a line feed; it is
brought to line feeds before it is inserted.

## Main definitions

* `Text.byteLength` — the size of a text in UTF-8.
* `Text.lines` — the lines of a text, never none.
* `Text.normalizeLineBreaks` — every line break of any of the three kinds as one line feed.
-/

namespace WorkspaceEditing

/-- A text, character by character. -/
abbrev Text := List Char

namespace Text

/-- The number of bytes that a text takes in UTF-8. -/
def byteLength : Text → Nat
  | [] => 0
  | c :: rest => c.utf8Size + byteLength rest

@[simp] theorem byteLength_nil : byteLength [] = 0 := rfl

@[simp] theorem byteLength_cons (c : Char) (t : Text) :
    byteLength (c :: t) = c.utf8Size + byteLength t := rfl

@[simp] theorem byteLength_append (s t : Text) :
    byteLength (s ++ t) = byteLength s + byteLength t := by
  induction s with
  | nil => simp
  | cons c s ih => simp [ih, Nat.add_assoc]

/-- The bytes of a text in UTF-8. -/
def toBytes (t : Text) : ByteArray := (String.ofList t).toByteArray

/-- The text that bytes are in UTF-8, if they are one. -/
def ofBytes? (bytes : ByteArray) : Option Text := bytes.utf8Decode?.map Array.toList

/-- Writing a text as bytes and reading it back loses nothing. -/
@[simp] theorem ofBytes?_toBytes (t : Text) : ofBytes? t.toBytes = some t := by
  simp [ofBytes?, toBytes, String.toByteArray_ofList, List.utf8Decode?_utf8Encode]

/-! ## Lines -/

/-- The lines of a text, without their line feeds. A line feed at the end is followed by an empty
last line, and the empty text is one empty line. -/
def lines (t : Text) : List Text := pieces '\n' t

/-- A text from its lines. -/
def ofLines (ls : List Text) : Text := joined '\n' ls

@[simp] theorem lines_ne_nil (t : Text) : lines t ≠ [] := pieces_ne_nil '\n' t

@[simp] theorem ofLines_lines (t : Text) : ofLines (lines t) = t := joined_pieces '\n' t

/-- The number of lines; one more than there are line feeds. -/
def lineCount (t : Text) : Nat := (lines t).length

theorem lineCount_eq (t : Text) : lineCount t = t.count '\n' + 1 := length_pieces '\n' t

/-- The line at an index, without its line feed. -/
def line? (t : Text) (index : Nat) : Option Text := (lines t)[index]?

/-- The byte length of the line at an index. -/
def lineLength? (t : Text) (index : Nat) : Option Nat := (t.line? index).map byteLength

/-! ## Line breaks -/

/-- Writes `\r\n`, a lone `\r` and a lone `\n` all as `\n`, reading from left to right. -/
def unifyLineBreaks : Text → Text
  | [] => []
  | '\r' :: '\n' :: rest => '\n' :: unifyLineBreaks rest
  | '\r' :: rest => '\n' :: unifyLineBreaks rest
  | c :: rest => c :: unifyLineBreaks rest

/-- A text without carriage returns has its line breaks in the buffer's form already. -/
def hasUnifiedBreaks (t : Text) : Bool := !t.contains '\r'

/-- The text with every line break as one line feed. A text that has them so is handed back as it
is, without a copy. -/
def normalizeLineBreaks (t : Text) : Text :=
  if t.hasUnifiedBreaks then t else t.unifyLineBreaks

theorem unifyLineBreaks_cons_of_ne {c : Char} (hc : c ≠ '\r') (t : Text) :
    unifyLineBreaks (c :: t) = c :: t.unifyLineBreaks := by
  simp [unifyLineBreaks, hc]

theorem unifyLineBreaks_of_not_mem {t : Text} (h : '\r' ∉ t) : t.unifyLineBreaks = t := by
  induction t with
  | nil => rfl
  | cons c t ih =>
    obtain ⟨hc, hrest⟩ := List.ne_and_not_mem_of_not_mem_cons h
    rw [unifyLineBreaks_cons_of_ne (Ne.symm hc), ih hrest]

/-- Line breaks are brought to one form whether or not the text is copied. -/
theorem normalizeLineBreaks_eq (t : Text) : t.normalizeLineBreaks = t.unifyLineBreaks := by
  unfold normalizeLineBreaks hasUnifiedBreaks
  by_cases h : '\r' ∈ t
  · simp [h]
  · simp [h, unifyLineBreaks_of_not_mem h]

end Text

end WorkspaceEditing
