import WorkspaceEditing.Apply.Workspace

/-!
# Running a code action

The edit of an action is applied first, and its command is sent to the server then, whatever became
of the edit. Of a disabled action nothing is done.

## Main definitions

* `ActionOutcome` — what running an action did.
* `Applier.runAction` — runs an action.
-/

namespace WorkspaceEditing

open Protocol

/-- What running an action did: the report of its edit, the answer to its command, and why nothing
was done if it is disabled. -/
structure ActionOutcome where
  report : Option Report
  answer : Option (Except ApplyError (Option Json))
  disabled : Option String
  /-- The requests that were sent. -/
  requests : List Request

namespace ActionOutcome

/-- Whether the action was run, and nothing in it failed. -/
def isSuccess (o : ActionOutcome) : Bool :=
  o.disabled.isNone && o.report.all (·.isSuccess) &&
    match o.answer with
    | some (.error _) => false
    | _ => true

end ActionOutcome

namespace Applier

variable {σ : Type}

/-- The answer to a command. -/
def answerTo (server : Server) (command : Command) : Except ApplyError (Option Json) :=
  (command.execute server).mapError .command

/-- Runs an action that a user has chosen. -/
def runAction (a : Applier σ) (server : Server) (action : Action) (w : World σ) :
    ActionOutcome × World σ :=
  match action with
  | .command command =>
    ({ report := none, answer := some (answerTo server command), disabled := none,
       requests := [command.request] }, w)
  | .codeAction action =>
    match action.disabled with
    | some reason =>
      ({ report := none, answer := none, disabled := some reason, requests := [] }, w)
    | none =>
      let (report, w) := match action.edit with
        | some edit => let (report, w) := a.applyWorkspaceEdit edit w; (some report, w)
        | none => (none, w)
      ({ report, answer := action.command.map (answerTo server), disabled := none,
         requests := (action.command.map (·.request)).toList }, w)

end Applier

end WorkspaceEditing
