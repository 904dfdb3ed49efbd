import WorkspaceEditing.Proofs.Host.Account

/-!
# Running under a watch

Under a watch that refuses calls an action still makes the calls that it would make otherwise, one
after the other, up to the first that is refused. That one is recorded, does not reach the editor,
and its error ends the action. So an action is known by the calls that it plans, which are found as
if nothing was refused.

## Main definitions

* `World.recorded` — an editor's world under a watch.
* `Watched.attempt` — a plan of calls, made up to the first that is refused.
* `Watched.Makes` — an action attempts a plan of calls, of which some change the editor.
* `Watched.Allows` — of some calls none is refused.
* `Watched.account` — the account of a host under a watch.

## Main results

* `Watched.Makes.bind` — what an action makes, and then what follows it.
* `Watched.Makes.run` — the calls that are made, and the result.
-/

namespace WorkspaceEditing

open Session

/-- The world of an editor under a watch, with the calls on record. -/
def World.recorded (w : World Editor) (record : List Call) : World (Watched Editor) :=
  ⟨⟨w.host, record⟩, w.disk⟩

namespace Watched

variable {refusal? : List Call → Call → Option HostError} {α β : Type} {value : α} {value' : β}
  {w w' : World Editor} {call : Call} {calls calls' plan : List Call}

/-! ## Plans -/

/-- A plan of calls that are made one after the other, up to the first that is refused. -/
def attempt (refusal? : List Call → Call → Option HostError) (value : α) :
    List Call → List Call → World Editor → EStateM.Result HostError (World (Watched Editor)) α
  | [], record, w => .ok value (w.recorded record)
  | call :: plan, record, w =>
    match refusal? record call with
    | some cause => .error cause (w.recorded (record ++ [call]))
    | none => attempt refusal? value plan (record ++ [call]) (callWorld w call)

/-- An action attempts a plan of calls, of which those in `calls` change the editor. -/
def Makes (refusal? : List Call → Call → Option HostError) (action : HostAction (Watched Editor) α)
    (calls : List Call) (value : α) (w : World Editor) : Prop :=
  ∃ plan : List Call, plan.filter (!·.isRead) = calls ∧
    ∀ record, action (w.recorded record) = attempt refusal? value plan record w

/-- Of calls that are made after those on record none is refused. -/
def Allows (refusal? : List Call → Call → Option HostError) (record calls : List Call) : Prop :=
  ∀ done call rest, calls = done ++ call :: rest → refusal? (record ++ done) call = none

theorem callWorld_of_isRead (h : call.isRead = true) : callWorld w call = w := by
  cases call with
  | line buffer index => exact HostAction.left_look (·.line buffer index) w
  | lineCount buffer => exact HostAction.left_look (·.lineCount buffer) w
  | marks buffer => exact HostAction.left_look (·.marks buffer) w
  | fixesEndOfLine buffer => exact HostAction.left_look (·.fixesEndOfLine buffer) w
  | _ => cases h

/-- Calls that only look leave the editor as it is. -/
theorem foldl_filter_isRead (plan : List Call) (w : World Editor) :
    (plan.filter (!·.isRead)).foldl callWorld w = plan.foldl callWorld w := by
  induction plan generalizing w with
  | nil => rfl
  | cons call plan ih =>
    cases hread : call.isRead with
    | true =>
      rw [List.filter_cons_of_neg (by simp [hread]), ih, List.foldl_cons, callWorld_of_isRead hread]
    | false =>
      rw [List.filter_cons_of_pos (by simp [hread]), List.foldl_cons, ih, List.foldl_cons]

namespace Makes

/-! ## Putting actions together -/

theorem pure (value : α) : Makes refusal? (Pure.pure value) [] value w := ⟨[], rfl, fun _ => rfl⟩

/-- What an action makes, and then what follows it, on its value and in the world that it leaves. -/
theorem bind {action : HostAction (Watched Editor) α} {next : α → HostAction (Watched Editor) β}
    (h : Makes refusal? action calls value w)
    (hnext : Makes refusal? (next value) calls' value' (calls.foldl callWorld w)) :
    Makes refusal? (action >>= next) (calls ++ calls') value' w := by
  obtain ⟨plan, rfl, hrun⟩ := h
  obtain ⟨plan', rfl, hrun'⟩ := hnext
  rw [foldl_filter_isRead] at hrun'
  refine ⟨plan ++ plan', List.filter_append .., fun record => ?_⟩
  change EStateM.bind action next (w.recorded record) = _
  unfold EStateM.bind
  rw [hrun]
  clear hrun
  induction plan generalizing record w with
  | nil => exact hrun' record
  | cons call plan ih =>
    rw [List.cons_append, attempt, attempt]
    cases refusal? record call with
    | some cause => rfl
    | none => exact ih hrun' _

/-- A call that can fail is attempted, if the editor carries it out. -/
theorem guarded {action : HostAction Editor α} (h : action w = .ok value (callWorld w call)) :
    Makes refusal? (Host.guarded ⟨refusal?, false⟩ call action)
      (if call.isRead then [] else [call]) value w := by
  refine ⟨[call], by cases hread : call.isRead <;> simp [hread], fun record => ?_⟩
  have hsee : HostAction.see (·.calls) (w.recorded record) = .ok record (w.recorded record) := rfl
  have hupdate : HostAction.update (fun host : Watched Editor =>
      .ok { host with calls := record ++ [call] }) (w.recorded record) =
      .ok () (w.recorded (record ++ [call])) := rfl
  unfold Host.guarded
  rw [bind_of_ok hsee, bind_of_ok hupdate, attempt]
  dsimp only
  cases refusal? record call with
  | some cause => rfl
  | none =>
    show Host.inward action _ = _
    rw [Host.inward, World.recorded]
    dsimp only
    rw [h]
    rfl

theorem read {action : HostAction Editor α} (hread : call.isRead = true)
    (h : action w = .ok value w) :
    Makes refusal? (Host.guarded ⟨refusal?, false⟩ call action) [] value w := by
  have hleft : action w = .ok value (callWorld w call) := by rwa [callWorld_of_isRead hread]
  have hguarded : Makes refusal? (Host.guarded ⟨refusal?, false⟩ call action)
      (if call.isRead then [] else [call]) value w := guarded hleft
  rwa [if_pos hread] at hguarded

/-- A call that cannot fail is not on record. -/
theorem inward {action : HostAction Editor α} (h : action w = .ok value w) :
    Makes refusal? (Host.inward action) [] value w := by
  refine ⟨[], rfl, fun record => ?_⟩
  rw [Host.inward, World.recorded, h]
  rfl

/-! ## The run -/

theorem attempt_run (refusal? : List Call → Call → Option HostError) (value : α)
    (plan record : List Call) (w : World Editor) :
    ∃ made, Allows refusal? record made ∧
      (made = plan ∧ attempt refusal? value plan record w =
          .ok value ((made.foldl callWorld w).recorded (record ++ made)) ∨
        ∃ call cause, made ++ [call] <+: plan ∧ refusal? (record ++ made) call = some cause ∧
          attempt refusal? value plan record w =
            .error cause ((made.foldl callWorld w).recorded (record ++ made ++ [call]))) := by
  induction plan generalizing record w with
  | nil =>
    refine ⟨[], fun done call rest h => by simp at h, .inl ⟨rfl, ?_⟩⟩
    rw [List.append_nil]
    rfl
  | cons call plan ih =>
    cases hrefusal : refusal? record call with
    | some cause =>
      refine ⟨[], fun done call rest h => by simp at h, .inr ⟨call, cause, ⟨plan, rfl⟩, ?_, ?_⟩⟩
      · rwa [List.append_nil]
      · rw [attempt, hrefusal, List.append_nil]
        rfl
    | none =>
      obtain ⟨made, hallows, hmade⟩ := ih (record ++ [call]) (callWorld w call)
      have hattempt : attempt refusal? value (call :: plan) record w =
          attempt refusal? value plan (record ++ [call]) (callWorld w call) := by
        rw [attempt, hrefusal]
      have hrecord : record ++ call :: made = record ++ [call] ++ made := by simp
      refine ⟨call :: made, ?_, ?_⟩
      · intro done call' rest h
        cases done with
        | nil =>
          obtain ⟨rfl, -⟩ := List.cons.inj h
          rwa [List.append_nil]
        | cons first done =>
          rw [List.cons_append] at h
          obtain ⟨rfl, hmade⟩ := List.cons.inj h
          have hnone := hallows done call' rest hmade
          rwa [List.append_assoc] at hnone
      · rw [hattempt, hrecord, List.foldl_cons]
        rcases hmade with ⟨rfl, hrun⟩ | ⟨call', cause, hplan, hrefused, hrun⟩
        · exact .inl ⟨rfl, hrun⟩
        · exact .inr ⟨call', cause, (List.prefix_cons_inj call).2 hplan, hrefused, hrun⟩

/-- An action makes its calls in order. Either none is refused, and it succeeds, or the first that
is refused is the last that is made, and its error is the result. -/
theorem run {action : HostAction (Watched Editor) α} (h : Makes refusal? action calls value w)
    (record : List Call) :
    ∃ made, Allows refusal? record made ∧
      (made.filter (!·.isRead) = calls ∧
          action (w.recorded record) =
            .ok value ((made.foldl callWorld w).recorded (record ++ made)) ∨
        ∃ call cause, (made ++ [call]).filter (!·.isRead) <+: calls ∧
          refusal? (record ++ made) call = some cause ∧
          action (w.recorded record) =
            .error cause ((made.foldl callWorld w).recorded (record ++ made ++ [call]))) := by
  obtain ⟨plan, rfl, hrun⟩ := h
  obtain ⟨made, hallows, hmade⟩ := attempt_run refusal? value plan record w
  refine ⟨made, hallows, ?_⟩
  rw [hrun]
  rcases hmade with ⟨rfl, hok⟩ | ⟨call, cause, hplan, hrefused, herror⟩
  · exact .inl ⟨rfl, hok⟩
  · exact .inr ⟨call, cause, hplan.filter _, hrefused, herror⟩

end Makes

/-- Behind a wrapper that refuses calls, actions make the calls that the editor carries out. -/
def account (refusal? : List Call → Call → Option HostError) :
    (Editor.asHost.watched ⟨refusal?, false⟩).Account where
  Does action calls value w := Makes refusal? action calls value w
  pure value := .pure value
  bind h hnext := .bind h hnext
  line h index := .read rfl (Editor.line_ok h index)
  lineCount h := .read rfl (Editor.lineCount_ok h)
  marks h := .read rfl (Editor.marks_ok h)
  fixesEndOfLine h := .read rfl (Editor.fixesEndOfLine_ok h)
  focusedBuffer w :=
    .inward (show Editor.asHost.focusedBuffer w = .ok w.host.focusedBuffer? w from rfl)
  cursor w := .inward (show Editor.asHost.cursor w = .ok w.host.cursor? w from rfl)
  setListed h := .guarded (Editor.eq_ok_left (Editor.setListed_ok h))
  setText h hr := .guarded (Editor.eq_ok_left (Editor.setText_ok h hr))
  setMarks h ms := .guarded (Editor.eq_ok_left (Editor.setMarks_ok h ms))
  setCursor hfocus h hp := .guarded (Editor.eq_ok_left (Editor.setCursor_ok hfocus h hp))

end Watched

end WorkspaceEditing
