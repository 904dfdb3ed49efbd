import WorkspaceEditing.Proofs.Editor.Calls
import WorkspaceEditing.Proofs.Editor.Sound
import WorkspaceEditing.Proofs.Session.Steps

/-!
# Every session keeps the order of the editor

Whatever is done in a session, successfully or not, windows keep showing open buffers with their
cursors inside the texts, a window has the focus as long as there is one, and no handle is given out
twice. What an edit does to the editor comes down to calls, so it is enough that each single
operation keeps the order.

## Main definitions

* `Editor.Advances` — the order is kept, no handle is given out again, and no path is opened twice.
* `Session.OpensFresh` — buffers are only inserted for paths that are not open.

## Main results

* `Session.sound_run` — what holds after every session.
-/

namespace WorkspaceEditing

/-- From an editor in order comes another one, with no handle given out again, and no path opened
twice. -/
structure Editor.Advances (e e' : Editor) : Prop where
  sound : e.Sound → e'.Sound
  later : Editor.Later e e'
  distinctPaths : e.Sound → e.DistinctPaths → e'.DistinctPaths

namespace Session

/-! ## Single operations -/

open Editor (Advances)

theorem advances_refl (e : Editor) : e.Advances e := ⟨id, .refl e, fun _ => id⟩

theorem advances_trans {e e' e'' : Editor} (h : e.Advances e') (h' : e'.Advances e'') :
    e.Advances e'' where
  sound hs := h'.sound (h.sound hs)
  later := h.later.trans h'.later
  distinctPaths hs hd := h'.distinctPaths (h.sound hs) (h.distinctPaths hs hd)

theorem advances_retouched {id : BufferId} {e e' : Editor} (h : Editor.Retouched id e e') :
    e.Advances e' where
  sound hs := hs.retouched h
  later := .retouched h
  distinctPaths hs hd := hd.retouched hs.numbered h

/-- A change of the editor that is refused changes nothing. -/
theorem advances_update {f : Editor → Except HostError Editor}
    (h : ∀ e e', f e = .ok e' → e.Advances e') (w : World Editor) :
    w.host.Advances (left (HostAction.update f w)).host := by
  unfold HostAction.update
  cases hf : f w.host with
  | ok host => exact h w.host host hf
  | error cause => exact advances_refl w.host

theorem advances_look {α : Type} (read : Editor → Except HostError α) (w : World Editor) :
    w.host.Advances (left (HostAction.look read w)).host := by
  rw [HostAction.left_look]
  exact advances_refl w.host

/-- Loading a buffer opens it only if its path is not open. -/
theorem host_loadBuffer (path : Path) (w : World Editor) :
    (left (Editor.asHost.loadBuffer path w)).host = w.host ∨
      w.host.findBuffer? path = none ∧
        ∃ text, (left (Editor.asHost.loadBuffer path w)).host =
          (w.host.insertBuffer path text).2 := by
  rcases Editor.left_loadBuffer path w with heq | ⟨hfresh, text, heq⟩
  · exact .inl (congrArg World.host heq)
  · exact .inr ⟨hfresh, text, congrArg World.host heq⟩

theorem advances_loadBuffer (path : Path) (w : World Editor) :
    w.host.Advances (left (Editor.asHost.loadBuffer path w)).host := by
  rcases host_loadBuffer path w with heq | ⟨hfresh, text, heq⟩
  · rw [heq]
    exact advances_refl w.host
  · rw [heq]
    exact ⟨fun hs => hs.insertBuffer path text, .insertBuffer w.host path text,
      fun _ hd => hd.insertBuffer hfresh text⟩

/-- Writing a buffer changes the file tree only. -/
theorem host_writeBuffer (id : BufferId) (w : World Editor) :
    (left (Editor.asHost.writeBuffer id w)).host = w.host := by
  show (left (Editor.writeBuffer id w)).host = _
  rcases Editor.left_writeBuffer id w with heq | ⟨b, heq⟩
  · rw [heq]
  · rw [heq]

/-- Every call of the editor keeps its order. -/
theorem advances_callWorld (w : World Editor) (call : Call) :
    w.host.Advances (callWorld w call).host := by
  cases call with
  | loadBuffer path => exact advances_loadBuffer path w
  | setListed id =>
    exact advances_update (fun e e' h => advances_retouched (Editor.retouched_setListed h)) w
  | line id index => exact advances_look (·.line id index) w
  | lineCount id => exact advances_look (·.lineCount id) w
  | setText id r newLines =>
    exact advances_update (fun e e' h =>
      ⟨fun hs => hs.setText h, .setText h, fun hs hd => hd.setText hs.numbered h⟩) w
  | setCursor p =>
    exact advances_update (fun e e' h =>
      ⟨fun hs => hs.setCursor h, .setCursor h, fun _ hd => hd.setCursor h⟩) w
  | marks id => exact advances_look (·.marks id) w
  | setMarks id ms =>
    exact advances_update (fun e e' h => advances_retouched (Editor.retouched_setMarks h)) w
  | deleteBuffer id =>
    exact advances_update (fun e e' h =>
      ⟨fun hs => hs.deleteBuffer h, .deleteBuffer h, fun _ hd => hd.deleteBuffer h⟩) w
  | setWindowBuffer win id =>
    exact advances_update (fun e e' h =>
      ⟨fun hs => hs.setWindowBuffer h, .setWindowBuffer h, fun _ hd => hd.setWindowBuffer h⟩) w
  | writeBuffer id =>
    rw [callWorld, host_writeBuffer]
    exact advances_refl w.host
  | fixesEndOfLine id => exact advances_look (·.fixesEndOfLine id) w

/-! ## Steps -/

/-- A buffer is inserted only while its path is not open. -/
def OpensFresh (w : World Editor) : Step → Prop
  | .editor (.insertBuffer path _) => w.host.findBuffer? path = none
  | _ => True

/-- Every operation keeps the order and gives no handle out again, and if it opens a path, then one
that is not open. -/
theorem advances_editorStep (w : World Editor) (step : EditorStep)
    (hfresh : OpensFresh w (.editor step)) : w.host.Advances (step.world w).host := by
  cases step with
  | insertBuffer path text =>
    exact ⟨fun hs => hs.insertBuffer path text, .insertBuffer w.host path text,
      fun _ hd => hd.insertBuffer hfresh text⟩
  | openWindow id =>
    cases h : w.host.openWindow id with
    | ok opened =>
      obtain ⟨win, host⟩ := opened
      rw [show (EditorStep.openWindow id).world w = { w with host } by
        simp only [EditorStep.world, h]]
      exact ⟨fun hs => hs.openWindow h, .openWindow h, fun _ hd => hd.openWindow h⟩
    | error cause =>
      rw [show (EditorStep.openWindow id).world w = w by simp only [EditorStep.world, h]]
      exact advances_refl w.host
  | setFixesEndOfLine id fixes =>
    cases h : w.host.setFixesEndOfLine id fixes with
    | ok host =>
      rw [show (EditorStep.setFixesEndOfLine id fixes).world w = { w with host } by
        simp only [EditorStep.world, h]]
      exact advances_retouched (Editor.retouched_setFixesEndOfLine h)
    | error cause =>
      rw [show (EditorStep.setFixesEndOfLine id fixes).world w = w by
        simp only [EditorStep.world, h]]
      exact advances_refl w.host
  | call made => exact advances_callWorld w made
  | changeDisk disk => exact advances_refl w.host

/-- Calls of the editor keep its order, however many they are. -/
theorem Calls.advances {w w' : World Editor} (h : Calls w w') : w.host.Advances w'.host := by
  obtain ⟨calls, hcalls, rfl⟩ := h
  induction calls generalizing w with
  | nil => exact advances_refl w.host
  | cons step rest ih =>
    have hfresh : OpensFresh w (.editor step) := by
      have := hcalls step List.mem_cons_self
      cases step <;> simp_all [EditorStep.IsCall, OpensFresh]
    exact advances_trans (advances_editorStep w step hfresh)
      (ih (fun step hstep => hcalls step (List.mem_cons_of_mem _ hstep)))

theorem advances_step (w : World Editor) (step : Step) (hfresh : OpensFresh w step) :
    w.host.Advances (step.world w).host := by
  rcases step.exists_calls w with ⟨editorStep, rfl⟩ | hcalls
  · exact advances_editorStep w editorStep hfresh
  · exact hcalls.advances

/-- The order is kept also if a path is opened a second time. -/
theorem sound_later_step (w : World Editor) (step : Step) :
    (w.host.Sound → (step.world w).host.Sound) ∧ Editor.Later w.host (step.world w).host := by
  by_cases hfresh : OpensFresh w step
  · have h := advances_step w step hfresh
    exact ⟨h.sound, h.later⟩
  · cases step with
    | editor editorStep =>
      cases editorStep with
      | insertBuffer path text =>
        exact ⟨fun hs => hs.insertBuffer path text, .insertBuffer w.host path text⟩
      | _ => exact absurd trivial hfresh
    | _ => exact absurd trivial hfresh

/-! ## Sessions -/

theorem sound_later_run (w : World Editor) (steps : List Step) :
    (w.host.Sound → (run w steps).host.Sound) ∧ Editor.Later w.host (run w steps).host := by
  induction steps generalizing w with
  | nil => exact ⟨fun hs => hs, .refl w.host⟩
  | cons step rest ih =>
    obtain ⟨hsound, hlater⟩ := sound_later_step w step
    obtain ⟨hsound', hlater'⟩ := ih (step.world w)
    exact ⟨fun hs => hsound' (hsound hs), hlater.trans hlater'⟩

/-- In every session the editor is in order. -/
theorem hostSound_run (disk : Disk) (steps : List Step) :
    (run ⟨.empty, disk⟩ steps).host.Sound := (sound_later_run _ steps).1 Editor.sound_empty

theorem distinctPaths_run {w : World Editor} (hs : w.host.Sound) (hd : w.host.DistinctPaths)
    {steps : List Step}
    (hfresh : ∀ earlier step later, steps = earlier ++ step :: later →
      OpensFresh (run w earlier) step) : (run w steps).host.DistinctPaths := by
  induction steps generalizing w with
  | nil => exact hd
  | cons step rest ih =>
    have h := advances_step w step (hfresh [] step rest rfl)
    apply ih (h.sound hs) (h.distinctPaths hs hd)
    intro earlier step' later hsplit
    exact hfresh (step :: earlier) step' later (by rw [hsplit, List.cons_append])

/-- After any session that starts with no buffer open, whatever succeeded and whatever failed in it,
the editor is in order: every window shows an open buffer with its cursor inside, one of the windows
has the focus if there are any, and the handles are different numbers up to the last that was given
out. A handle that was given out at an earlier point is open only if it was open then. If buffers are
only inserted for paths that are not open, then no two buffers have one path. Applying an edit comes
down to calls of the editor, so all of this holds between these calls as well. -/
theorem sound_run (disk : Disk) (steps : List Step) :
    (run ⟨.empty, disk⟩ steps).host.Sound ∧
      (∀ earlier later, steps = earlier ++ later →
        Editor.Later (run ⟨.empty, disk⟩ earlier).host (run ⟨.empty, disk⟩ steps).host) ∧
      ((∀ earlier step later, steps = earlier ++ step :: later →
          OpensFresh (run ⟨.empty, disk⟩ earlier) step) →
        (run ⟨.empty, disk⟩ steps).host.DistinctPaths) ∧
      ∀ earlier step later, steps = earlier ++ step :: later →
        (∃ operation, step = .editor operation) ∨
          Calls (run ⟨.empty, disk⟩ earlier) (run ⟨.empty, disk⟩ (earlier ++ [step])) := by
  have hempty : Editor.empty.DistinctPaths := List.Pairwise.nil
  refine ⟨(sound_later_run _ steps).1 Editor.sound_empty, ?_, ?_, ?_⟩
  · rintro earlier later rfl
    rw [run_append]
    exact (sound_later_run _ later).2
  · intro hfresh
    exact distinctPaths_run (w := ⟨.empty, disk⟩) Editor.sound_empty hempty hfresh
  · rintro earlier step later rfl
    rw [run_append]
    exact step.exists_calls _

end Session

end WorkspaceEditing
