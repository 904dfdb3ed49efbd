import WorkspaceEditing.Text.Lines

/-!
# Sets of characters, and tables of them

A property of characters is written down as rows of the ranges of code points that have it, in
hexadecimal digits with blanks between the ranges.

## Main definitions

* `Unicode.CharSet` — a set of characters.
* `Unicode.words`, `Unicode.hexNumber`, `Unicode.rule` — the parts of a written table.
-/

namespace WorkspaceEditing

namespace Unicode

/-! ## Written tables -/

/-- The words of a row, with blanks between them. -/
def words (row : String) : List Text := pieces ' ' row.toList

/-- The number that hexadecimal digits stand for, the letters among them in lower case. -/
def hexNumber (digits : Text) : Nat :=
  digits.foldl (fun n c =>
    16 * n + (if c.isDigit then c.toNat - '0'.toNat else c.toNat - 'a'.toNat + 10)) 0

/-- The characters with dots between their code points. -/
def characters (t : Text) : Text := (pieces '.' t).map fun code => Char.ofNat (hexNumber code)

/-- What stands before and behind the `>` of a rule that leads from characters to characters. -/
def rule (t : Text) : Text × Text :=
  let sides := (pieces '>' t).map characters
  (sides.headD [], sides.getLastD [])

/-! ## Sets of characters -/

/-- The code points from `first` to `last`. -/
structure CharRange where
  first : Nat
  last : Nat
  deriving DecidableEq, Repr

namespace CharRange

/-- Whether a character is in the range. -/
def contains (r : CharRange) (c : Char) : Bool := r.first ≤ c.toNat && c.toNat ≤ r.last

/-- A range as it is written in a table: `300-36f`, or `5bf` for a single character. -/
def ofText (t : Text) : CharRange :=
  let ends := (pieces '-' t).map hexNumber
  ⟨ends.headD 0, ends.getLastD 0⟩

@[simp] theorem contains_iff {r : CharRange} {c : Char} :
    r.contains c ↔ r.first ≤ c.toNat ∧ c.toNat ≤ r.last := by
  simp [contains]

end CharRange

/-- A set of characters, as ranges of code points. -/
abbrev CharSet := List CharRange

namespace CharSet

/-- A set as it is written in the rows of a table. -/
def ofRows (rows : List String) : CharSet := (rows.flatMap words).map CharRange.ofText

/-- Whether a character is in the set. -/
def contains (set : CharSet) (c : Char) : Bool := set.any (·.contains c)

/-- A set holds what one of its ranges holds. -/
theorem contains_iff {set : CharSet} {c : Char} :
    set.contains c ↔ ∃ r ∈ set, r.first ≤ c.toNat ∧ c.toNat ≤ r.last := by
  simp [contains]

end CharSet

end Unicode

end WorkspaceEditing
