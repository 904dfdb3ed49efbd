import WorkspaceEditing.Disk.Walk

/-!
# Operations on files

Each operation names its file by a path and either succeeds or fails for one cause. An operation of
several steps that fails keeps the steps it has done.

## Main definitions

* `Disk.readText?`, `DiskAction.write` — the contents of files.
* `DiskAction.createDir`, `createDirs`, `createLink` — new entries.
* `DiskAction.removeFile`, `removeDir`, `removeTree` — entries taken away.
* `DiskAction.rename` — an entry, with all beneath it, under another path.
-/

namespace WorkspaceEditing

/-- A change of the file tree that may fail. What was done before a failure stays done. -/
abbrev DiskAction := EStateM DiskError Disk

/-- The text of a file at a path. -/
def Disk.readText? (d : Disk) (p : Path) : Except DiskError Text := do
  match ← d.status p with
  | (_, .file contents) =>
    match Text.ofBytes? contents with
    | some text => .ok text
    | none => .error .notText
  | _ => .error .isDirectory

namespace DiskAction

/-- The value of a look at the tree, or its cause of failure. -/
def look {α : Type} (read : Disk → Except DiskError α) : DiskAction α := fun d =>
  match read d with
  | .ok value => .ok value d
  | .error cause => .error cause d

/-- A change that never fails. -/
def change (f : Disk → Disk) : DiskAction Unit := fun d => .ok () (f d)

/-- Whether an action succeeds, or for which cause it fails. -/
def attempt (action : DiskAction Unit) : DiskAction (Option DiskError) := fun d =>
  match action d with
  | .ok _ d => .ok none d
  | .error cause d => .ok (some cause) d

/-- The directory and the name of an entry that is to be made or taken away, and whether the path
ends in a slash. A path that ends in `.`, in `..` or at the root has none, and fails as `special`
says. -/
def slot (p : Path) (special : LastStep → DiskError) : DiskAction (Key × Name × Bool) := do
  let spot ← look (·.locate .never p)
  match spot.last with
  | .name name => pure (spot.dir, name, spot.slash)
  | last => throw (special last)

/-- Fails for a name that is too long. -/
def checkName (name : Name) : DiskAction Unit :=
  if name.length > maxNameLength then throw .nameTooLong else pure ()

/-! ## Contents -/

/-- Writes a file, in place of the contents that it may have. A link at the end of the path is
followed, also to a file that is not there yet. -/
def write (p : Path) (contents : ByteArray) : DiskAction Unit := do
  let spot ← look (·.locate .withoutSlash p)
  match spot.last with
  | .name name =>
    if spot.slash then throw .isDirectory
    checkName name
    let key := spot.dir ++ [name]
    match (← get).get? key with
    | some .dir => throw .isDirectory
    | _ => change (·.set key (.file contents))
  | _ => throw .isDirectory

/-! ## New entries -/

/-- Makes an entry where none stands. A slash at the end of the path asks for a directory. -/
def createEntry (p : Path) (entry : Entry) : DiskAction Unit := do
  let (dir, name, slash) ← slot p fun _ => .alreadyExists
  checkName name
  let key := dir ++ [name]
  if ((← get).get? key).isSome then throw .alreadyExists
  if slash ∧ entry ≠ .dir then throw .notFound
  change (·.set key entry)

/-- Makes a directory. -/
def createDir (p : Path) : DiskAction Unit := createEntry p .dir

/-- Makes a symbolic link. -/
def createLink (p : Path) (target : List UInt8) : DiskAction Unit := createEntry p (.link target)

/-- Makes the first of the directories, after those that follow it if it has no place yet. One that
is there already is left alone. -/
def createDirsFrom : List Path → DiskAction Unit
  | [] => pure ()
  | p :: above => do
    match ← attempt (createDir p) with
    | none => pure ()
    | some .notFound =>
      createDirsFrom above
      settle p (← attempt (createDir p))
    | failure => settle p failure
where
  settle (p : Path) : Option DiskError → DiskAction Unit
    | none => pure ()
    | some cause => do
      if cause = .alreadyExists ∧ (← get).isDirectory p then pure () else throw cause

/-- A path and the paths above it, without the root. -/
def ancestors (p : Path) : List Path := go p.names.length p
where
  go : Nat → Path → List Path
    | 0, _ => []
    | n + 1, p =>
      match p.parent? with
      | some parent => p :: go n parent
      | none => []

/-- Makes a directory and all above it that are missing. -/
def createDirs (p : Path) : DiskAction Unit := createDirsFrom (ancestors p)

/-! ## Entries taken away -/

/-- Takes a file or a link away. -/
def removeFile (p : Path) : DiskAction Unit := do
  let (dir, name, slash) ← slot p fun _ => .isDirectory
  checkName name
  let key := dir ++ [name]
  match (← get).get? key with
  | none => throw .notFound
  | some .dir => throw .isDirectory
  | some _ => if slash then throw .notDirectory else change (·.remove key)

/-- Takes an empty directory away. -/
def removeDir (p : Path) : DiskAction Unit := do
  let (dir, name, _) ← slot p fun
    | .here => .invalidArgument
    | .above => .notEmpty
    | _ => .busy
  checkName name
  let key := dir ++ [name]
  match (← get).get? key with
  | none => throw .notFound
  | some .dir => if (← get).hasBeneath key then throw .notEmpty else change (·.remove key)
  | some _ => throw .notDirectory

/-- Takes away what stands at a path, a directory with all that it holds. A link is taken away
itself. -/
def removeTree (p : Path) : DiskAction Unit := do
  match ← look (·.linkStatus p) with
  | (_, .link _) => removeFile p
  | (_, .file _) => throw .notDirectory
  | (key, .dir) =>
    change (·.removeBeneath key)
    match ← attempt (removeDir p) with
    | none | some .notFound => pure ()
    | some cause => throw cause

/-- Takes away what stands at a path: a file or a link, a directory with all that it holds if
`recursive` is set, and otherwise only an empty one. -/
def remove (p : Path) (recursive : Bool) : DiskAction Unit := do
  match ← look (·.linkStatus p) with
  | (_, .dir) => if recursive then removeTree p else removeDir p
  | _ => removeFile p

/-! ## Renaming -/

/-- Moves an entry, with all beneath it, to another path. A file or a link that stands there gives
way to a file or a link, an empty directory to a directory. Nothing happens if both paths are the
same entry. -/
def rename (source target : Path) : DiskAction Unit := do
  if target.bytes.contains 0 then throw .nulInPath
  let old ← look (·.locate .never source)
  let new ← look (·.locate .never target)
  match old.last, new.last with
  | .name oldName, .name newName =>
    let oldKey := old.dir ++ [oldName]
    let newKey := new.dir ++ [newName]
    let d ← get
    checkName oldName
    match d.get? oldKey with
    | none => throw .notFound
    | some entry =>
      checkName newName
      if entry ≠ .dir ∧ (old.slash ∨ new.slash) then throw .notDirectory
      if oldKey.isPrefixOf new.dir then throw .invalidArgument
      if newKey.isPrefixOf old.dir then throw .notEmpty
      if oldKey = newKey then pure ()
      else
        match entry, d.get? newKey with
        | _, none => pure ()
        | .dir, some .dir => if d.hasBeneath newKey then throw .notEmpty
        | .dir, some _ => throw .notDirectory
        | _, some .dir => throw .isDirectory
        | _, some _ => pure ()
        change (·.move oldKey newKey)
  | _, _ => throw .busy

end DiskAction

end WorkspaceEditing
