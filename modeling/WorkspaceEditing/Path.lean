import WorkspaceEditing.Pieces
import WorkspaceEditing.Text.Lines

/-!
# File paths

A path is a sequence of bytes, cut into components by slashes. Empty components and `.` mean
nothing, so paths that differ only in them are the same path; `..` and letter case are kept. A path
is shown as text with `U+FFFD` for each run of bytes that is not UTF-8.

## Main definitions

* `Path.components` — what a path is compared by.
* `Path.startsWith`, `Path.stripPrefix?`, `Path.join`, `Path.parent?` — the tree of paths.
* `Path.display` — the path as messages show it.
-/

namespace WorkspaceEditing

/-- A file path, byte by byte. -/
structure Path where
  bytes : List UInt8
  deriving DecidableEq, Repr

/-- The bytes of a name between two slashes. -/
abbrev Name := List UInt8

namespace Path

/-- The byte `/`. -/
def slash : UInt8 := 0x2F

/-- The name `.`, the directory itself. -/
def here : Name := [0x2E]

/-- The name `..`, the directory above. -/
def above : Name := [0x2E, 0x2E]

/-- The path of a text. -/
def ofString (s : String) : Path := ⟨s.toUTF8.toList⟩

/-- One step along a path. A leading `.` of a path that does not start at the root is a step of its
own; every other `.` is none. -/
inductive Component where
  | root
  | here
  | name (bytes : Name)
  deriving DecidableEq, Repr

/-- Whether a name between slashes means nothing. -/
def isTrivial (name : Name) : Bool := name == [] || name == here

/-- Whether the path starts at the root of the file tree. -/
def isAbsolute (p : Path) : Bool := p.bytes.head? == some slash

/-- What stands between the slashes of a path, after the first slash of an absolute one. -/
def body (p : Path) : List Name := pieces slash (if p.isAbsolute then p.bytes.tail else p.bytes)

/-- The names along a path that mean something. -/
def names (p : Path) : List Name := p.body.filter fun name => !isTrivial name

/-- The steps along a path. -/
def components (p : Path) : List Component :=
  (if p.isAbsolute then [.root] else if p.body.head? == some here then [.here] else []) ++
    p.names.map .name

/-- Paths are the same if their components are. -/
def same (p q : Path) : Bool := p.components == q.components

/-- Drops the meaningless names at the end. -/
def trimEnd (names : List Name) : List Name := (names.reverse.dropWhile isTrivial).reverse

/-- An absolute path from what stands between its slashes. -/
def ofBody (names : List Name) : Path := ⟨slash :: joined slash names⟩

/-- The absolute path without its last component; the root has none above it. -/
def parent? (p : Path) : Option Path :=
  if p.isAbsolute ∧ p.names ≠ [] then some (ofBody (trimEnd (trimEnd p.body).dropLast)) else none

/-- Whether the path is `base` or lies beneath it, component by component. -/
def startsWith (p base : Path) : Bool := base.components.isPrefixOf p.components

/-- Drops the names that mean something from the front, `count` of them, and what is meaningless
before and after each. -/
def dropNames : Nat → List Name → List Name
  | _, [] => []
  | 0, name :: rest => if isTrivial name then dropNames 0 rest else name :: rest
  | count + 1, name :: rest =>
    if isTrivial name then dropNames (count + 1) rest else dropNames count rest

/-- The rest of an absolute path beneath `base`, relative to it, as it is written. -/
def stripPrefix? (p base : Path) : Option Path :=
  if p.isAbsolute ∧ p.startsWith base then
    some ⟨joined slash (trimEnd (dropNames base.names.length p.body))⟩
  else none

/-- The path with a relative path written behind it. -/
def join (p : Path) (relative : Path) : Path :=
  if relative.bytes = [] then p
  else if p.bytes.getLast? = some slash then ⟨p.bytes ++ relative.bytes⟩
  else ⟨p.bytes ++ slash :: relative.bytes⟩

/-! ## Showing a path -/

/-- Whether a byte continues a character. -/
def isContinuation (b : UInt8) : Bool := 0x80 ≤ b && b ≤ 0xBF

/-- The number of bytes of the character that a byte begins, and the bytes that may come second. -/
def leadByte? (b : UInt8) : Option (Nat × UInt8 × UInt8) :=
  if b ≤ 0x7F then some (1, 0x80, 0xBF)
  else if 0xC2 ≤ b ∧ b ≤ 0xDF then some (2, 0x80, 0xBF)
  else if b = 0xE0 then some (3, 0xA0, 0xBF)
  else if b = 0xED then some (3, 0x80, 0x9F)
  else if 0xE1 ≤ b ∧ b ≤ 0xEF then some (3, 0x80, 0xBF)
  else if b = 0xF0 then some (4, 0x90, 0xBF)
  else if b = 0xF4 then some (4, 0x80, 0x8F)
  else if 0xF1 ≤ b ∧ b ≤ 0xF3 then some (4, 0x80, 0xBF)
  else none

/-- How many of the bytes belong together at the front: those of a whole character, or as many as
could begin one. -/
def runLength : List UInt8 → Nat × Bool
  | [] => (0, false)
  | b :: rest =>
    match leadByte? b with
    | none => (1, false)
    | some (size, low, high) =>
      match size, rest with
      | 1, _ => (1, true)
      | _, [] => (1, false)
      | _, second :: more =>
        if low ≤ second ∧ second ≤ high then
          let tail := (more.take (size - 2)).takeWhile isContinuation
          (2 + tail.length, tail.length == size - 2)
        else (1, false)

/-- The code point whose UTF-8 bytes are given, one to four of them. -/
def codePoint : List UInt8 → Char
  | [a] => Char.ofNat a.toNat
  | [a, b] => Char.ofNat ((a.toNat - 0xC0) * 64 + (b.toNat - 0x80))
  | [a, b, c] =>
    Char.ofNat ((a.toNat - 0xE0) * 4096 + (b.toNat - 0x80) * 64 + (c.toNat - 0x80))
  | [a, b, c, d] =>
    Char.ofNat ((a.toNat - 0xF0) * 262144 + (b.toNat - 0x80) * 4096 + (c.toNat - 0x80) * 64 +
      (d.toNat - 0x80))
  | _ => '\ufffd'

/-- The text of a sequence of bytes, with `U+FFFD` in place of each run that is not UTF-8. -/
def lossyText (bytes : List UInt8) : Text :=
  go bytes.length bytes
where
  go : Nat → List UInt8 → Text
    | 0, _ => []
    | _, [] => []
    | fuel + 1, b :: rest =>
      let (size, whole) := runLength (b :: rest)
      (if whole then codePoint ((b :: rest).take size) else '\ufffd') ::
        go fuel ((b :: rest).drop size)

/-- The path as messages show it. -/
def display (p : Path) : String := String.ofList (lossyText p.bytes)

end Path

end WorkspaceEditing
