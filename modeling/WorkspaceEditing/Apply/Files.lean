import WorkspaceEditing.Apply.Report
import WorkspaceEditing.Apply.TextEdits

/-!
# Creating, renaming and deleting files

File operations change the file tree and keep the open buffers in step with it. Each fails on its
own, and takes nothing back that was done before.

## Main definitions

* `Applier.createFile`, `Applier.renameFile`, `Applier.deleteFile` — the three operations.
-/

namespace WorkspaceEditing

open Protocol

namespace Applier

variable {σ : Type}

/-- The file path of a URI. -/
def pathOf (uri : Uri) : ApplyAction σ Path :=
  match uri.toPath? with
  | some path => pure path
  | none => throw (.invalidUri uri)

/-- The open buffers at a path or beneath it. -/
def buffersUnder (a : Applier σ) (root : Path) : ApplyAction σ (List (BufferId × Path)) := do
  return (← .onHost a.host.buffers).filter fun buffer => buffer.2.startsWith root

/-- Makes the directories above a path that are missing. -/
def createParents (path : Path) : DiskAction Unit :=
  match path.parent? with
  | some parent => DiskAction.createDirs parent
  | none => pure ()

/-- Creates an empty file, and opens a buffer for it. A file that is there is only emptied if the
change says so; its buffer is opened in any case. -/
def createFile (a : Applier σ) (change : CreateFile) : ApplyAction σ ChangeStatus := do
  let path ← pathOf change.uri
  let present ← .lookAtDisk (·.isPresent path)
  if !change.overwrite && present then
    let _ ← .onHost (a.host.loadBuffer path)
    return .skipped .alreadyExists
  .onDisk (.createFailed change.uri) do
    createParents path
    DiskAction.write path ByteArray.empty
  let _ ← .onHost (a.host.loadBuffer path)
  return .applied

/-- Writes buffers to their files. -/
def writeBuffers (a : Applier σ) : List (BufferId × Path) → HostAction σ Unit
  | [] => pure ()
  | (buffer, _) :: rest => do
    a.host.writeBuffer buffer
    a.writeBuffers rest

/-- Makes windows show a buffer. -/
def showIn (a : Applier σ) (buffer : BufferId) : List WindowId → HostAction σ Unit
  | [] => pure ()
  | window :: rest => do
    a.host.setWindowBuffer window buffer
    a.showIn buffer rest

/-- Opens each buffer at its place beneath the new path, in every window that showed it, and gives
up the old one. -/
def moveBuffers (a : Applier σ) (oldPath newPath : Path) :
    List (BufferId × Path) → HostAction σ Unit
  | [] => pure ()
  | (buffer, path) :: rest => do
    match path.stripPrefix? oldPath with
    | none => pure ()
    | some suffix =>
      let moved ← a.host.loadBuffer (newPath.join suffix)
      a.showIn moved (← a.host.windowsShowing buffer)
      a.host.deleteBuffer buffer
    a.moveBuffers oldPath newPath rest

/-- Renames a file or a directory, and moves the open buffers along with it. They are written
before, so that no text is lost. What stands at the new path is removed if the change says so. -/
def renameFile (a : Applier σ) (change : RenameFile) : ApplyAction σ ChangeStatus := do
  let oldPath ← pathOf change.oldUri
  let newPath ← pathOf change.newUri
  if ← .lookAtDisk (·.isPresent newPath) then
    if !change.overwrite || change.ignoreIfExists then
      return .skipped .targetExists
    .onDisk (.renameFailed change.oldUri change.newUri true) (DiskAction.remove newPath true)
  let affected ← a.buffersUnder oldPath
  .onHost (a.writeBuffers affected)
  .onDisk (.renameFailed change.oldUri change.newUri false) do
    createParents newPath
    DiskAction.rename oldPath newPath
  .onHost (a.moveBuffers oldPath newPath affected)
  return .applied

/-- Gives buffers up. -/
def deleteBuffers (a : Applier σ) : List (BufferId × Path) → HostAction σ Unit
  | [] => pure ()
  | (buffer, _) :: rest => do
    a.host.deleteBuffer buffer
    a.deleteBuffers rest

/-- Deletes a file or a directory, and gives up the buffers at its path or beneath it. -/
def deleteFile (a : Applier σ) (change : DeleteFile) : ApplyAction σ ChangeStatus := do
  let path ← pathOf change.uri
  if !(← .lookAtDisk (·.isPresent path)) then
    if change.ignoreIfNotExists then return .skipped .missing
    throw (.missing path)
  .onDisk (.deleteFailed change.uri) (DiskAction.remove path change.recursive)
  .onHost (a.deleteBuffers (← a.buffersUnder path))
  return .applied

end Applier

end WorkspaceEditing
