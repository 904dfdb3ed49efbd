import WorkspaceEditing.Disk.Basic
import WorkspaceEditing.Disk.Error

/-!
# Walking a path

A path is walked name by name from the root. Every name but the last has to lead to a directory;
symbolic links on the way are followed, forty of them at most. Whether a link at the end is followed
depends on the operation and on a slash at the end of the path, which asks for a directory.

## Main definitions

* `Spot` — the end of a walk: a directory, and what the last name of the path says about it.
* `Disk.locate` — the spot that a path leads to.
* `Disk.status`, `Disk.linkStatus` — what stands at a path, with a link at its end followed or not.
-/

namespace WorkspaceEditing

/-- The last step of a walk. -/
inductive LastStep where
  /-- A name, which may or may not stand in the directory. -/
  | name (bytes : Name)
  /-- The directory itself, by `.`. -/
  | here
  /-- The directory above, by `..`. -/
  | above
  /-- The root of the tree, which no name leads to. -/
  | root
  deriving DecidableEq, Repr

/-- The end of a walk: the directory it has come to, its last step, and whether the path ended in a
slash. -/
structure Spot where
  dir : Key
  last : LastStep
  slash : Bool
  deriving DecidableEq, Repr

/-- When a link at the end of a path is followed; a slash at the end may decide it. -/
inductive Following where
  | never
  | always
  | atSlash
  | withoutSlash
  deriving DecidableEq, Repr

/-- Whether a link at the end of a path is followed. -/
def Following.follows : Following → Bool → Bool
  | never, _ => false
  | always, _ => true
  | atSlash, slash => slash
  | withoutSlash, slash => !slash

/-- The greatest number of bytes in a name. -/
def maxNameLength : Nat := 255

/-- A number of bytes that no path may have. -/
def pathLengthLimit : Nat := 4096

/-- The number of symbolic links that are followed on the way of one path. -/
def maxLinks : Nat := 40

namespace Disk

/-- The names between the slashes of a path, empty ones left out. -/
def stepsOf (bytes : List UInt8) : List Name := (pieces Path.slash bytes).filter (· ≠ [])

/-- Whether the last name of a path stands before a slash. -/
def endsInSlash (bytes : List UInt8) : Bool := bytes.getLast? = some Path.slash

/-- Walks the names from a directory. Links that are followed are handed to `jump`, with the
directory they stand in, the names still to be walked, and the slash at the end. -/
def walkNames (d : Disk) (following : Following)
    (jump : Key → List UInt8 → List Name → Bool → Except DiskError Spot) :
    Key → List Name → Bool → Except DiskError Spot
  | dir, [], slash => .ok ⟨dir, .root, slash⟩
  | dir, name :: rest, slash =>
    if rest = [] then
      if name = Path.here then .ok ⟨dir, .here, slash⟩
      else if name = Path.above then .ok ⟨dir, .above, slash⟩
      else match d.get? (dir ++ [name]) with
        | some (.link target) =>
          if following.follows slash then jump dir target [] slash
          else .ok ⟨dir, .name name, slash⟩
        | _ => .ok ⟨dir, .name name, slash⟩
    else if name = Path.here then walkNames d following jump dir rest slash
    else if name = Path.above then walkNames d following jump dir.dropLast rest slash
    else if name.length > maxNameLength then .error .nameTooLong
    else match d.get? (dir ++ [name]) with
      | none => .error .notFound
      | some (.file _) => .error .notDirectory
      | some .dir => walkNames d following jump (dir ++ [name]) rest slash
      | some (.link target) => jump dir target rest slash

/-- Walks the names from a directory, following at most the given number of links. -/
def walk (d : Disk) (following : Following) :
    Nat → Key → List Name → Bool → Except DiskError Spot
  | 0 => walkNames d following fun _ _ _ _ => .error .tooManyLinks
  | links + 1 => walkNames d following fun dir target rest slash =>
    walk d following links (if target.head? = some Path.slash then [] else dir)
      (stepsOf target ++ rest) (slash || (rest = [] && endsInSlash target))

/-- The spot that a path leads to. A relative path is walked from the root. -/
def locate (d : Disk) (following : Following) (p : Path) : Except DiskError Spot :=
  if p.bytes.contains 0 then .error .nulInPath
  else if p.bytes = [] then .error .notFound
  else if p.bytes.length ≥ pathLengthLimit then .error .nameTooLong
  else walk d following maxLinks [] (stepsOf p.bytes) (endsInSlash p.bytes)

/-- What stands at a spot. A slash at the end of a path asks for a directory. -/
def entryAt (d : Disk) (spot : Spot) : Except DiskError (Key × Entry) :=
  match spot.last with
  | .root | .here => .ok (spot.dir, .dir)
  | .above => .ok (spot.dir.dropLast, .dir)
  | .name name =>
    if name.length > maxNameLength then .error .nameTooLong
    else
      let key := spot.dir ++ [name]
      match d.get? key with
      | none => .error .notFound
      | some .dir => .ok (key, .dir)
      | some entry => if spot.slash then .error .notDirectory else .ok (key, entry)

/-- What stands at a path, and its key, with a link at the end followed. -/
def status (d : Disk) (p : Path) : Except DiskError (Key × Entry) := do
  d.entryAt (← d.locate .always p)

/-- What stands at a path, and its key; a link at the end is itself what stands there, unless the
path ends in a slash. -/
def linkStatus (d : Disk) (p : Path) : Except DiskError (Key × Entry) := do
  d.entryAt (← d.locate .atSlash p)

/-- Whether something stands at a path. A path that cannot be walked leads to nothing. -/
def isPresent (d : Disk) (p : Path) : Bool :=
  match d.status p with
  | .ok _ => true
  | .error _ => false

/-- Whether a directory stands at a path. -/
def isDirectory (d : Disk) (p : Path) : Bool :=
  match d.status p with
  | .ok (_, .dir) => true
  | _ => false

end Disk

end WorkspaceEditing
