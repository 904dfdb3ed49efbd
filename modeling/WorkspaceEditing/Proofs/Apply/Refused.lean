import WorkspaceEditing.Proofs.Apply.Rename

/-!
# Changes that are refused

A change is refused if its URI leads to no file path, if a renaming finds something at its target
that it may not overwrite, or if nothing stands where a deletion is to be made. All of this is seen
before anything is done, and nothing that is done later fails in such a way, so a refused change
leaves the world as it finds it. The changes of a workspace edit share nothing but the world. Hence
the edit does what it would do without the refused change.

## Main definitions

* `Outcome.isRefused` — whether a change was refused.
* `Outcome.ending` — an outcome without its number.
* `LeavesIfRefused` — a refusal leaves the world as it was.

## Main results

* `Applier.leaves_applyChange` — of a change that is refused nothing is done.
* `Applier.applyChanges_isolated` — a run of changes is the same without a change that is refused.
* `Applier.applyWorkspaceEdit_isolated` — so is a whole workspace edit, but for its report.
-/

namespace WorkspaceEditing

open Protocol

/-! ## Refusals -/

/-- Whether a change fails before it is begun: its URI leads to no file path, or there is nothing to
delete. -/
def ApplyError.isRefusal : ApplyError → Bool
  | .invalidUri _ => true
  | .missing _ => true
  | _ => false

/-- Whether a change is skipped before it is begun: the target of a renaming is there, or there is
nothing to delete. -/
def ChangeStatus.isRefusal : ChangeStatus → Bool
  | .skipped .targetExists => true
  | .skipped .missing => true
  | _ => false

/-- Whether a change was refused. -/
def Outcome.isRefused (o : Outcome) : Bool :=
  match o.result with
  | .ok status => status.isRefusal
  | .error cause => cause.isRefusal

/-- What became of which target. -/
def Outcome.ending (o : Outcome) : String × Except ApplyError ChangeStatus := (o.target, o.result)

variable {σ α β : Type} {w : World σ}

/-- If a change ends with a refusal, it leaves the world as it was. -/
def LeavesIfRefused (w : World σ) : EStateM.Result ApplyError (World σ) ChangeStatus → Prop
  | .ok status w' => status.isRefusal = true → w' = w
  | .error cause w' => cause.isRefusal = true → w' = w

namespace ApplyAction

/-- An action that does not end with a refusal: its failures are others, and where it succeeds its
value is as told. -/
def Proceeds (P : α → Prop) (action : ApplyAction σ α) : Prop :=
  ∀ w, match action w with
    | .ok value _ => P value
    | .error cause _ => cause.isRefusal = false

namespace Proceeds

variable {P : α → Prop} {Q : β → Prop}

theorem pure {value : α} (h : P value) : Proceeds P (Pure.pure value : ApplyAction σ α) :=
  fun _ => h

theorem bind {action : ApplyAction σ α} {next : α → ApplyAction σ β}
    (h : Proceeds (fun _ => True) action) (hnext : ∀ value, Proceeds Q (next value)) :
    Proceeds Q (action >>= next) := by
  intro w
  have hw := h w
  change match EStateM.bind action next w with
    | .ok value _ => Q value
    | .error cause _ => cause.isRefusal = false
  unfold EStateM.bind
  cases hrun : action w with
  | ok value w' => exact hnext value w'
  | error cause w' =>
    rw [hrun] at hw
    exact hw

/-- A call that the host refuses is another failure. -/
theorem onHost (call : HostAction σ α) : Proceeds (fun _ => True) (onHost call) := by
  intro w
  unfold ApplyAction.onHost
  cases call w with
  | ok value w' => trivial
  | error cause w' => rfl

theorem onDisk {failure : DiskError → ApplyError} (h : ∀ cause, (failure cause).isRefusal = false)
    (action : DiskAction α) :
    Proceeds (fun _ => True) (onDisk failure action : ApplyAction σ α) := by
  intro w
  unfold ApplyAction.onDisk
  cases action w.disk with
  | ok value disk => trivial
  | error cause disk => exact h cause

theorem leavesIfRefused {action : ApplyAction σ ChangeStatus}
    (h : Proceeds (fun status => status.isRefusal = false) action) (w : World σ) :
    LeavesIfRefused w (action w) := by
  have hw := h w
  cases hrun : action w with
  | ok status w' =>
    rw [hrun] at hw
    exact fun hrefused => absurd hrefused (Bool.eq_false_iff.1 hw)
  | error cause w' =>
    rw [hrun] at hw
    exact fun hrefused => absurd hrefused (Bool.eq_false_iff.1 hw)

end Proceeds

end ApplyAction

namespace LeavesIfRefused

/-- What follows a look at the world finds the world as it was. -/
theorem bind {action : ApplyAction σ α} {next : α → ApplyAction σ ChangeStatus}
    (h : left (action w) = w) (hnext : ∀ value, LeavesIfRefused w (next value w)) :
    LeavesIfRefused w ((action >>= next) w) := by
  change LeavesIfRefused w (EStateM.bind action next w)
  unfold EStateM.bind
  cases hrun : action w with
  | ok value w' =>
    rw [hrun] at h
    obtain rfl : w' = w := h
    exact hnext value
  | error cause w' =>
    rw [hrun] at h
    exact fun _ => h

theorem ite {c : Prop} [Decidable c] {action other : ApplyAction σ ChangeStatus}
    (h : LeavesIfRefused w (action w)) (hother : LeavesIfRefused w (other w)) :
    LeavesIfRefused w ((if c then action else other) w) := by
  split
  · exact h
  · exact hother

end LeavesIfRefused

/-! ## One change -/

namespace Applier

variable (a : Applier σ)

theorem left_pathOf (uri : Uri) (w : World σ) :
    left ((pathOf uri : ApplyAction σ Path) w) = w := by
  unfold pathOf
  cases uri.toPath? <;> rfl

theorem left_lookAtDisk (read : Disk → α) (w : World σ) :
    left ((ApplyAction.lookAtDisk read : ApplyAction σ α) w) = w := rfl

theorem leaves_applyDocumentEdit (change : DocumentEdit) (w : World σ) :
    LeavesIfRefused w (a.applyDocumentEdit change w) := by
  refine .ite (fun _ => rfl) (.bind (left_pathOf _ w) fun path => ?_)
  apply ApplyAction.Proceeds.leavesIfRefused
  exact .bind (.onHost _) fun buffer => .bind (.onHost _) fun _ => .pure rfl

theorem leaves_createFile (change : CreateFile) (w : World σ) :
    LeavesIfRefused w (a.createFile change w) := by
  refine .bind (left_pathOf _ w) fun path => .bind (left_lookAtDisk _ w) fun present => .ite ?_ ?_
  · apply ApplyAction.Proceeds.leavesIfRefused
    exact .bind (.onHost _) fun _ => .pure rfl
  · apply ApplyAction.Proceeds.leavesIfRefused
    exact .bind (.onDisk (fun _ => rfl) _) fun _ => .bind (.onHost _) fun _ => .pure rfl

theorem proceeds_buffersUnder (root : Path) :
    ApplyAction.Proceeds (fun _ => True) (a.buffersUnder root) :=
  .bind (.onHost _) fun _ => .pure trivial

theorem proceeds_relocate (change : RenameFile) (oldPath newPath : Path) :
    ApplyAction.Proceeds (fun status => status.isRefusal = false)
      (a.relocate change oldPath newPath) := by
  refine .bind (proceeds_buffersUnder a oldPath) fun affected => .bind (.onHost _) fun _ => ?_
  exact .bind (.onDisk (fun _ => rfl) _) fun _ => .bind (.onHost _) fun _ => .pure rfl

theorem leaves_renameFile (change : RenameFile) (w : World σ) :
    LeavesIfRefused w (a.renameFile change w) := by
  cases hold : change.oldUri.toPath? with
  | none =>
    have hrun : a.renameFile change w = _ := bind_of_error (pathOf_error hold) _
    rw [hrun]
    exact fun _ => rfl
  | some oldPath =>
    cases hnew : change.newUri.toPath? with
    | none =>
      have hrun : a.renameFile change w = _ :=
        (bind_of_ok (pathOf_ok hold) _).trans (bind_of_error (pathOf_error hnew) _)
      rw [hrun]
      exact fun _ => rfl
    | some newPath =>
      have hrelocate := proceeds_relocate a change oldPath newPath
      rw [renameFile_eq hold hnew]
      split_ifs
      · exact fun _ => rfl
      · apply ApplyAction.Proceeds.leavesIfRefused
        exact .bind (.onDisk (fun _ => rfl) _) fun _ => hrelocate
      · exact hrelocate.leavesIfRefused w

theorem leaves_deleteFile (change : DeleteFile) (w : World σ) :
    LeavesIfRefused w (a.deleteFile change w) := by
  refine .bind (left_pathOf _ w) fun path => .bind (left_lookAtDisk _ w) fun present => .ite ?_ ?_
  · exact .ite (fun _ => rfl) fun _ => rfl
  · apply ApplyAction.Proceeds.leavesIfRefused
    refine .bind (.onDisk (fun _ => rfl) _) fun _ => ?_
    exact .bind (proceeds_buffersUnder a path) fun _ => .bind (.onHost _) fun _ => .pure rfl

/-- Of a change that is refused nothing is done. -/
theorem leaves_applyChange (change : DocumentChange) (w : World σ) :
    LeavesIfRefused w (a.applyChange change w) := by
  cases change with
  | edit change => exact leaves_applyDocumentEdit a change w
  | create change => exact leaves_createFile a change w
  | rename change => exact leaves_renameFile a change w
  | delete change => exact leaves_deleteFile a change w

/-- So the change after it finds the world as it was. -/
theorem snd_result_of_isRefused {change : DocumentChange} {index : Nat}
    (h : (⟨index, change.target, ((a.applyChange change).result w).1⟩ : Outcome).isRefused = true) :
    ((a.applyChange change).result w).2 = w := by
  have hleaves := leaves_applyChange a change w
  unfold Outcome.isRefused at h
  unfold ApplyAction.result at h ⊢
  cases hrun : a.applyChange change w with
  | ok status w' =>
    simp only [hrun] at h hleaves ⊢
    exact hleaves h
  | error cause w' =>
    simp only [hrun] at h hleaves ⊢
    exact hleaves h

/-! ## All changes -/

variable {a}

/-- Outcomes are numbered one after the other. -/
theorem index_applyChanges (index : Nat) (changes : List DocumentChange) (w : World σ) :
    (a.applyChanges index changes w).1.map Outcome.index = List.range' index changes.length := by
  induction changes generalizing index w with
  | nil => rfl
  | cons change changes ih =>
    simp only [applyChanges, List.map_cons, ih, List.length_cons, List.range'_succ]

/-- Nothing depends on the number at which the numbering starts. -/
theorem applyChanges_renumbered (index index' : Nat) (changes : List DocumentChange)
    (w : World σ) :
    (a.applyChanges index changes w).1.map Outcome.ending =
        (a.applyChanges index' changes w).1.map Outcome.ending ∧
      (a.applyChanges index changes w).2 = (a.applyChanges index' changes w).2 := by
  induction changes generalizing index index' w with
  | nil => exact ⟨rfl, rfl⟩
  | cons change changes ih =>
    obtain ⟨hendings, hworld⟩ := ih (index + 1) (index' + 1) ((a.applyChange change).result w).2
    simp only [applyChanges, List.map_cons, hendings]
    exact ⟨rfl, hworld⟩

/-- Without a change that was refused, a run of changes has the same effects and the same results for
the other changes. -/
theorem applyChanges_isolated {before behind : List DocumentChange} {change : DocumentChange}
    {index : Nat} {w : World σ}
    (h : ((a.applyChanges index (before ++ change :: behind) w).1[before.length]?).any
      Outcome.isRefused = true) :
    (a.applyChanges index (before ++ behind) w).1.map Outcome.ending =
        ((a.applyChanges index (before ++ change :: behind) w).1.map Outcome.ending).eraseIdx
          before.length ∧
      (a.applyChanges index (before ++ behind) w).2 =
        (a.applyChanges index (before ++ change :: behind) w).2 := by
  induction before generalizing index w with
  | nil =>
    have hworld : ((a.applyChange change).result w).2 = w := snd_result_of_isRefused a h
    simp only [List.nil_append, applyChanges, hworld]
    exact applyChanges_renumbered index (index + 1) behind w
  | cons first before ih =>
    have hnext : ((a.applyChanges (index + 1) (before ++ change :: behind)
        ((a.applyChange first).result w).2).1[before.length]?).any Outcome.isRefused = true := h
    obtain ⟨hendings, hworld⟩ := ih hnext
    refine ⟨?_, hworld⟩
    simp only [List.cons_append, applyChanges, List.map_cons, List.length_cons,
      List.eraseIdx_cons_succ, hendings]

/-- If a change of a workspace edit was refused, the edit without it leaves the same host and files
and has the same results for the other changes, which are numbered in order with it and without
it. -/
theorem applyWorkspaceEdit_isolated (a : Applier σ) (w : World σ) {changes changes' : DocumentChanges}
    {before behind : List DocumentChange} {change : DocumentChange}
    (hchanges : changes.toList = before ++ change :: behind)
    (hchanges' : changes'.toList = before ++ behind) (older older' : Option (List DocumentEdit))
    (hrefused : ((a.applyWorkspaceEdit ⟨some changes, older⟩ w).1.outcomes[before.length]?).any
      Outcome.isRefused = true) :
    let whole := a.applyWorkspaceEdit ⟨some changes, older⟩ w
    let rest := a.applyWorkspaceEdit ⟨some changes', older'⟩ w
    rest.2 = whole.2 ∧
      rest.1.outcomes.map Outcome.ending =
        (whole.1.outcomes.map Outcome.ending).eraseIdx before.length ∧
      whole.1.outcomes.map Outcome.index = List.range (before ++ change :: behind).length ∧
      rest.1.outcomes.map Outcome.index = List.range (before ++ behind).length := by
  simp only [applyWorkspaceEdit, changesOf, hchanges, hchanges'] at hrefused ⊢
  obtain ⟨hendings, hworld⟩ := applyChanges_isolated hrefused
  rw [List.range_eq_range', List.range_eq_range']
  exact ⟨hworld, hendings, index_applyChanges 0 _ w, index_applyChanges 0 _ w⟩

/-- Between the creation of a file and its deletion, another file is to be deleted, which is not
there. -/
theorem applyWorkspaceEdit_isolated_deletion :
    let a : Applier Editor := ⟨Editor.asHost, .standard, .utf16⟩
    let w : World Editor := ⟨.empty, ⟨[]⟩⟩
    let file : Uri := ⟨"file:///a".toList, by decide⟩
    let before : List DocumentChange := [.create ⟨file, false⟩]
    let refused : DocumentChange := .delete ⟨⟨"file:///b".toList, by decide⟩, false, false⟩
    let behind : List DocumentChange := [.delete ⟨file, false, false⟩]
    let whole := a.applyWorkspaceEdit ⟨some (.operations (before ++ refused :: behind)), none⟩ w
    let rest := a.applyWorkspaceEdit ⟨some (.operations (before ++ behind)), none⟩ w
    (whole.1.outcomes[before.length]?).any Outcome.isRefused = true ∧ rest.2 = whole.2 ∧
      rest.1.outcomes.map Outcome.ending =
        (whole.1.outcomes.map Outcome.ending).eraseIdx before.length ∧
      whole.1.outcomes.map Outcome.index = List.range (before ++ refused :: behind).length ∧
      rest.1.outcomes.map Outcome.index = List.range (before ++ behind).length := by
  intro a w file before refused behind whole rest
  have hrefused : (whole.1.outcomes[before.length]?).any Outcome.isRefused = true := by
    decide +kernel
  have hwhole : (DocumentChanges.operations (before ++ refused :: behind)).toList =
      before ++ refused :: behind := rfl
  have hrest : (DocumentChanges.operations (before ++ behind)).toList = before ++ behind := rfl
  have hisolated := applyWorkspaceEdit_isolated a w hwhole hrest none none
  with_reducible exact ⟨hrefused, hisolated hrefused⟩

end Applier

end WorkspaceEditing
