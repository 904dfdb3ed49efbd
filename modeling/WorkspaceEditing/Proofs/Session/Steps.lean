import WorkspaceEditing.Proofs.Apply.Keeps
import WorkspaceEditing.Editor.Operations
import WorkspaceEditing.Host.Watched

/-!
# Sessions with the editor

A session is a run of steps: buffers and windows are opened, the editor is called as a host, the
file tree is changed by others, and edits are applied. A step may fail, and then leaves what was
done before it failed. Applying an edit comes down to calls of the editor and changes of the file
tree.

## Main definitions

* `EditorStep` — a single operation of the editor, or a change of the file tree.
* `Step` — such an operation, or the application of an edit.
* `run` — the world that a run of steps leaves.

## Main results

* `Step.exists_calls` — to apply an edit is to make calls of the editor and changes of the tree.
-/

namespace WorkspaceEditing

open Protocol

namespace Session

/-! ## Steps -/

/-- An operation of the editor, or a change of the file tree by someone else. -/
inductive EditorStep where
  | insertBuffer (path : Path) (text : Text)
  | openWindow (buffer : BufferId)
  | setFixesEndOfLine (buffer : BufferId) (fixes : Bool)
  /-- A call of the editor as a host. -/
  | call (call : Call)
  | changeDisk (disk : Disk)

/-- The world that a call of the editor leaves. -/
def callWorld (w : World Editor) : Call → World Editor
  | .loadBuffer path => left (Editor.asHost.loadBuffer path w)
  | .setListed buffer => left (Editor.asHost.setListed buffer w)
  | .line buffer index => left (Editor.asHost.line buffer index w)
  | .lineCount buffer => left (Editor.asHost.lineCount buffer w)
  | .setText buffer range newLines => left (Editor.asHost.setText buffer range newLines w)
  | .setCursor position => left (Editor.asHost.setCursor position w)
  | .marks buffer => left (Editor.asHost.marks buffer w)
  | .setMarks buffer marks => left (Editor.asHost.setMarks buffer marks w)
  | .deleteBuffer buffer => left (Editor.asHost.deleteBuffer buffer w)
  | .setWindowBuffer window buffer => left (Editor.asHost.setWindowBuffer window buffer w)
  | .writeBuffer buffer => left (Editor.asHost.writeBuffer buffer w)
  | .fixesEndOfLine buffer => left (Editor.asHost.fixesEndOfLine buffer w)

/-- The world that an operation leaves. One that is refused leaves it as it was. -/
def EditorStep.world (w : World Editor) : EditorStep → World Editor
  | .insertBuffer path text => { w with host := (w.host.insertBuffer path text).2 }
  | .openWindow buffer =>
    match w.host.openWindow buffer with
    | .ok (_, host) => { w with host }
    | .error _ => w
  | .setFixesEndOfLine buffer fixes =>
    match w.host.setFixesEndOfLine buffer fixes with
    | .ok host => { w with host }
    | .error _ => w
  | .call made => callWorld w made
  | .changeDisk disk => { w with disk }

/-- An operation of the editor, or the application of an edit to it. -/
inductive Step where
  | editor (step : EditorStep)
  | applyTextEdits (config : Config) (e : Encoding) (buffer : BufferId) (edits : List TextEdit)
  | applyChange (config : Config) (e : Encoding) (change : DocumentChange)
  | applyWorkspaceEdit (config : Config) (e : Encoding) (edit : WorkspaceEdit)
  | runAction (config : Config) (e : Encoding) (server : Server) (action : Action)

/-- The world that a step leaves, whether it succeeds or fails. -/
def Step.world (w : World Editor) : Step → World Editor
  | .editor step => step.world w
  | .applyTextEdits config e buffer edits =>
    left (Applier.applyTextEdits ⟨Editor.asHost, config, e⟩ buffer edits w)
  | .applyChange config e change =>
    left (Applier.applyChange ⟨Editor.asHost, config, e⟩ change w)
  | .applyWorkspaceEdit config e edit =>
    (Applier.applyWorkspaceEdit ⟨Editor.asHost, config, e⟩ edit w).2
  | .runAction config e server action =>
    (Applier.runAction ⟨Editor.asHost, config, e⟩ server action w).2

/-- The world that a run of steps leaves. -/
def run (w : World Editor) (steps : List Step) : World Editor := steps.foldl Step.world w

@[simp] theorem run_append (w : World Editor) (steps steps' : List Step) :
    run w (steps ++ steps') = run (run w steps) steps' := List.foldl_append

/-! ## What an edit comes down to -/

/-- A call of the editor or a change of the file tree. -/
def EditorStep.IsCall : EditorStep → Prop
  | .call _ | .changeDisk _ => True
  | _ => False

/-- One world comes from another by calls of the editor and changes of the file tree. -/
def Calls (w w' : World Editor) : Prop :=
  ∃ calls : List EditorStep, (∀ step ∈ calls, step.IsCall) ∧ w' = calls.foldl EditorStep.world w

instance : IsPreorder (World Editor) Calls where
  refl w := ⟨[], by simp, rfl⟩
  trans := by
    rintro w w' w'' ⟨calls, hcalls, rfl⟩ ⟨calls', hcalls', rfl⟩
    refine ⟨calls ++ calls', ?_, List.foldl_append.symm⟩
    intro step hstep
    rcases List.mem_append.1 hstep with hstep | hstep
    · exact hcalls step hstep
    · exact hcalls' step hstep

theorem Calls.single (w : World Editor) (step : EditorStep) (h : step.IsCall) :
    Calls w (step.world w) := ⟨[step], by simpa using h, rfl⟩

theorem calls_call (w : World Editor) (call : Call) : Calls w (callWorld w call) :=
  Calls.single w (.call call) trivial

/-- Every call of the editor is a call. -/
theorem keeps_asHost : Editor.asHost.Keeps Calls where
  loadBuffer path w := calls_call w (.loadBuffer path)
  buffers w := refl_of Calls w
  setListed buffer w := calls_call w (.setListed buffer)
  line buffer index w := calls_call w (.line buffer index)
  lineCount buffer w := calls_call w (.lineCount buffer)
  setText buffer range newLines w := calls_call w (.setText buffer range newLines)
  focusedBuffer w := refl_of Calls w
  cursor w := refl_of Calls w
  setCursor p w := calls_call w (.setCursor p)
  marks buffer w := calls_call w (.marks buffer)
  setMarks buffer marks w := calls_call w (.setMarks buffer marks)
  deleteBuffer buffer w := calls_call w (.deleteBuffer buffer)
  windowsShowing _ w := refl_of Calls w
  setWindowBuffer window buffer w := calls_call w (.setWindowBuffer window buffer)
  writeBuffer buffer w := calls_call w (.writeBuffer buffer)
  fixesEndOfLine buffer w := calls_call w (.fixesEndOfLine buffer)

/-- Applying an edit comes down to calls of the editor and changes of the file tree. -/
theorem Step.exists_calls (w : World Editor) (step : Step) :
    (∃ editorStep, step = .editor editorStep) ∨ Calls w (step.world w) := by
  have hdisk (w : World Editor) (disk : Disk) : Calls w { w with disk } :=
    Calls.single w (.changeDisk disk) trivial
  cases step with
  | editor step => exact .inl ⟨step, rfl⟩
  | applyTextEdits config e buffer edits =>
    exact .inr
      (Applier.keeps_applyTextEdits (a := ⟨_, config, e⟩) keeps_asHost.toKeepsInMemory buffer edits w)
  | applyChange config e change =>
    exact .inr (Applier.keeps_applyChange (a := ⟨_, config, e⟩) keeps_asHost hdisk change w)
  | applyWorkspaceEdit config e edit =>
    exact .inr (Applier.applyWorkspaceEdit_keeps (a := ⟨_, config, e⟩) keeps_asHost hdisk edit w)
  | runAction config e server action =>
    exact .inr (Applier.runAction_keeps (a := ⟨_, config, e⟩) keeps_asHost hdisk server action w)

end Session

end WorkspaceEditing
