import WorkspaceEditing.Host
import WorkspaceEditing.Protocol.Command

/-!
# What became of a change

A change is applied, skipped for a reason, or fails for a cause. Applying a workspace edit gives a
report with one entry for each of its changes, in order.

## Main definitions

* `SkipReason`, `ChangeStatus`, `ApplyError` — the results of a change.
* `Outcome`, `Report` — the results of a workspace edit.
* `ApplyAction` — an action that may fail as a change does.
-/

namespace WorkspaceEditing

open Protocol

/-- Why a file operation is not carried out, although nothing is wrong. -/
inductive SkipReason where
  | alreadyExists
  | targetExists
  | missing
  deriving DecidableEq, Repr

/-- The wording of a reason. -/
def SkipReason.message : SkipReason → String
  | alreadyExists => "file already exists"
  | targetExists => "rename target already exists"
  | missing => "file does not exist"

/-- How a change that does not fail ends. -/
inductive ChangeStatus where
  | applied
  | skipped (reason : SkipReason)
  deriving DecidableEq, Repr

/-- Why a change fails. -/
inductive ApplyError where
  /-- The URI leads to no file path. -/
  | invalidUri (uri : Uri)
  | host (error : HostError)
  | createFailed (uri : Uri) (cause : DiskError)
  /-- A renaming failed, perhaps when what stood at the target was to be removed. -/
  | renameFailed (oldUri newUri : Uri) (removingTarget : Bool) (cause : DiskError)
  | deleteFailed (uri : Uri) (cause : DiskError)
  /-- Nothing stands at the path that is to be deleted. -/
  | missing (path : Path)
  /-- A server refused a command. -/
  | command (error : ServerError)
  deriving DecidableEq, Repr

/-- The wording of an error. -/
def ApplyError.message : ApplyError → String
  | invalidUri uri => s!"invalid uri: {uri.toString}"
  | host error => error.message
  | createFailed uri cause => s!"create file failed: {uri.toString}: {cause.message}"
  | renameFailed oldUri newUri removingTarget cause =>
    let step := if removingTarget then "removing existing target: " else ""
    s!"rename file failed: {oldUri.toString} -> {newUri.toString}: {step}{cause.message}"
  | deleteFailed uri cause => s!"delete file failed: {uri.toString}: {cause.message}"
  | missing path => s!"cannot delete missing file or directory: {path.display}"
  | command error => s!"command failed: {error.message}"

/-! ## Reports -/

/-- The result of one change: its number, its target, and how it ended. -/
structure Outcome where
  index : Nat
  target : String
  result : Except ApplyError ChangeStatus

/-- An outcome as a line of text. -/
def Outcome.text (o : Outcome) : String :=
  let ending := match o.result with
    | .ok .applied => "applied"
    | .ok (.skipped reason) => s!"skipped, {reason.message}"
    | .error e => e.message
  s!"change {o.index} ({o.target}): {ending}"

/-- Whether a change failed. -/
def Outcome.isFailure (o : Outcome) : Bool :=
  match o.result with
  | .ok _ => false
  | .error _ => true

/-- Whether a change was skipped. -/
def Outcome.isSkip (o : Outcome) : Bool :=
  match o.result with
  | .ok (.skipped _) => true
  | _ => false

/-- The results of all changes of a workspace edit. -/
structure Report where
  outcomes : List Outcome

namespace Report

/-- Whether no change failed. -/
def isSuccess (r : Report) : Bool := r.outcomes.all fun o => !o.isFailure

/-- Whether there was no change. -/
def isEmpty (r : Report) : Bool := r.outcomes.isEmpty

/-- The changes that failed. -/
def failures (r : Report) : List Outcome := r.outcomes.filter (·.isFailure)

/-- The changes that were skipped. -/
def skipped (r : Report) : List Outcome := r.outcomes.filter (·.isSkip)

end Report

/-! ## Actions -/

/-- An action on a host and the file tree that fails as a change does. What was done before a
failure stays done. -/
abbrev ApplyAction (σ α : Type) := EStateM ApplyError (World σ) α

namespace ApplyAction

variable {σ α : Type}

/-- A call of the host. -/
def onHost (call : HostAction σ α) : ApplyAction σ α := fun w =>
  match call w with
  | .ok value w => .ok value w
  | .error e w => .error (.host e) w

/-- An action on the file tree, with the error that its failure is. -/
def onDisk (failure : DiskError → ApplyError) (action : DiskAction α) : ApplyAction σ α := fun w =>
  match action w.disk with
  | .ok value disk => .ok value { w with disk }
  | .error cause disk => .error (failure cause) { w with disk }

/-- A look at the file tree. -/
def lookAtDisk (read : Disk → α) : ApplyAction σ α := fun w => .ok (read w.disk) w

/-- The result of an action, and the world after it. -/
def result (action : ApplyAction σ α) (w : World σ) : Except ApplyError α × World σ :=
  match action w with
  | .ok value w => (.ok value, w)
  | .error e w => (.error e, w)

end ApplyAction

end WorkspaceEditing
