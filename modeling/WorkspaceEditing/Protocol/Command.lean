import WorkspaceEditing.Json
import WorkspaceEditing.Protocol.Change

/-!
# Commands and code actions

A code action carries an edit, a command, or both. The edit is for the client to apply; a command
goes back to the server that offered it, as a request.

## Main definitions

* `Protocol.Command`, `Protocol.CodeAction` — what a server offers.
* `Protocol.ServerError` — why a request fails.
* `Protocol.Command.execute` — the request of a command, sent to a server.
-/

namespace WorkspaceEditing

namespace Protocol

/-- A command of a server. Its arguments mean nothing to the client. -/
structure Command where
  title : String
  command : String
  arguments : Option (List Json)

/-- What a user may choose to do: the edit and the command of the action, unless the server has
disabled it. -/
structure CodeAction where
  title : String
  edit : Option WorkspaceEdit
  command : Option Command
  /-- Why the action is disabled. -/
  disabled : Option String

/-- A code action, or a command in its place. -/
inductive Action where
  | command (command : Command)
  | codeAction (action : CodeAction)

/-- Why a request to a server fails. -/
inductive ServerError where
  | serviceStopped
  /-- A payload cannot be written or read. -/
  | malformed (reason : String)
  /-- The server answers with an error. -/
  | response (code : Int) (message : String)
  | unsupported (request : String)
  /-- The server does not keep to the protocol. -/
  | protocol (reason : String)
  deriving DecidableEq, Repr

/-- The wording of an error. -/
def ServerError.message : ServerError → String
  | serviceStopped => "service stopped"
  | malformed reason => s!"deserialization failed: {reason}"
  | response code message => s!"{message} (code {code})"
  | unsupported request => s!"unsupported request: {request}"
  | protocol reason => s!"protocol error: {reason}"

/-- A request to a server. -/
structure Request where
  method : String
  params : Json

/-- A server: its answer to each request. -/
abbrev Server := Request → Except ServerError Json

/-- The request that has a server carry out a command. -/
def Command.request (c : Command) : Request where
  method := "workspace/executeCommand"
  params := .object [("command", .string c.command), ("arguments", .array (c.arguments.getD []))]

/-- Sends a command to a server. The answer `null` is none. -/
def Command.execute (server : Server) (c : Command) : Except ServerError (Option Json) :=
  (server c.request).map fun
    | .null => none
    | answer => some answer

end Protocol

end WorkspaceEditing
