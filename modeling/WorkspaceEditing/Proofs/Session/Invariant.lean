import WorkspaceEditing.Proofs.Session.Sound

/-!
# Invariants of the editor

What each operation of the editor keeps, every session keeps, whatever succeeds and whatever fails
in it: an edit comes down to calls of the editor, and a call that fails leaves the editor as it was.

## Main definitions

* `Session.Invariant` — a property of the editor that each of its operations keeps.

## Main results

* `Session.Invariant.run` — such a property is kept by every session.
-/

namespace WorkspaceEditing

namespace Session

/-- A property of the editor that each of its operations keeps. -/
structure Invariant (I : Editor → Prop) : Prop where
  insertBuffer : ∀ e path text, I e → I (e.insertBuffer path text).2
  openWindow : ∀ e id win e', e.openWindow id = .ok (win, e') → I e → I e'
  setFixesEndOfLine : ∀ e id fixes e', e.setFixesEndOfLine id fixes = .ok e' → I e → I e'
  setListed : ∀ e id e', e.setListed id = .ok e' → I e → I e'
  setText : ∀ e id r newLines e', e.setText id r newLines = .ok e' → I e → I e'
  setCursor : ∀ e p e', e.setCursor p = .ok e' → I e → I e'
  setMarks : ∀ e id ms e', e.setMarks id ms = .ok e' → I e → I e'
  deleteBuffer : ∀ e id e', e.deleteBuffer id = .ok e' → I e → I e'
  setWindowBuffer : ∀ e win id e', e.setWindowBuffer win id = .ok e' → I e → I e'

namespace Invariant

variable {I : Editor → Prop} (h : Invariant I) {w w' : World Editor}
include h

omit h in
theorem update {f : Editor → Except HostError Editor} (hf : ∀ e e', f e = .ok e' → I e → I e')
    (hw : I w.host) : I (left (HostAction.update f w)).host := by
  unfold HostAction.update
  cases heq : f w.host with
  | ok host => exact hf w.host host heq hw
  | error cause => exact hw

omit h in
theorem look {α : Type} (read : Editor → Except HostError α) (hw : I w.host) :
    I (left (HostAction.look read w)).host := by
  rw [HostAction.left_look]
  exact hw

/-- Every call of the editor keeps an invariant. -/
theorem callWorld (call : Call) (hw : I w.host) : I (callWorld w call).host := by
  cases call with
  | loadBuffer path =>
    rcases host_loadBuffer path w with heq | ⟨-, text, heq⟩
    · exact heq ▸ hw
    · exact heq ▸ h.insertBuffer _ path text hw
  | setListed id => exact update (fun e e' => h.setListed e id e') hw
  | setText id r newLines => exact update (fun e e' => h.setText e id r newLines e') hw
  | setCursor p => exact update (fun e e' => h.setCursor e p e') hw
  | setMarks id ms => exact update (fun e e' => h.setMarks e id ms e') hw
  | deleteBuffer id => exact update (fun e e' => h.deleteBuffer e id e') hw
  | setWindowBuffer win id => exact update (fun e e' => h.setWindowBuffer e win id e') hw
  | writeBuffer id =>
    rw [Session.callWorld, host_writeBuffer]
    exact hw
  | line id index => exact look (·.line id index) hw
  | lineCount id => exact look (·.lineCount id) hw
  | marks id => exact look (·.marks id) hw
  | fixesEndOfLine id => exact look (·.fixesEndOfLine id) hw

theorem editorStep (step : EditorStep) (hw : I w.host) : I (step.world w).host := by
  cases step with
  | insertBuffer path text => exact h.insertBuffer _ path text hw
  | openWindow id =>
    cases hopen : w.host.openWindow id with
    | ok opened =>
      simpa only [EditorStep.world, hopen] using h.openWindow _ id opened.1 opened.2 hopen hw
    | error cause => simpa only [EditorStep.world, hopen] using hw
  | setFixesEndOfLine id fixes =>
    cases hset : w.host.setFixesEndOfLine id fixes with
    | ok host =>
      simpa only [EditorStep.world, hset] using h.setFixesEndOfLine _ id fixes host hset hw
    | error cause => simpa only [EditorStep.world, hset] using hw
  | call made => exact h.callWorld made hw
  | changeDisk disk => exact hw

theorem foldl (steps : List EditorStep) (hw : I w.host) :
    I (steps.foldl EditorStep.world w).host := by
  induction steps generalizing w with
  | nil => exact hw
  | cons step rest ih => exact ih (h.editorStep step hw)

/-- Every session keeps an invariant. -/
theorem run (steps : List Step) (hw : I w.host) : I (run w steps).host := by
  induction steps generalizing w with
  | nil => exact hw
  | cons step rest ih =>
    apply ih
    rcases step.exists_calls w with ⟨editorStep, rfl⟩ | ⟨calls, -, heq⟩
    · exact h.editorStep editorStep hw
    · exact heq ▸ h.foldl calls hw

end Invariant

end Session

end WorkspaceEditing
