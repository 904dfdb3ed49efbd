import Mathlib.Order.Defs.Unbundled
import Mathlib.Tactic.SplitIfs
import WorkspaceEditing.Host

/-!
# Running actions

An action of a host runs its parts one after the other, up to the first that fails. What a run
leaves is found part by part; and a relation that can be chained holds across the run if it holds
across each part. An action that first looks and then changes something changes nothing where it
fails.

## Main definitions

* `left` — the state that an action leaves, whether it succeeds or fails.
* `Keeps` — a relation between the state that an action finds and the one that it leaves.
* `Commits` — what an action gives and leaves where it succeeds, while it changes nothing where it
  fails.
-/

namespace WorkspaceEditing

/-! ## Runs -/

section

variable {ε σ α β : Type} {action : EStateM ε σ α} {s s' : σ}

/-- What follows an action that succeeds runs on its value, in the state that it leaves. -/
theorem bind_of_ok {value : α} (h : action s = .ok value s') (next : α → EStateM ε σ β) :
    (action >>= next) s = next value s' := by
  show EStateM.bind action next s = _
  rw [EStateM.bind, h]

/-- What follows an action that fails is not run. -/
theorem bind_of_error {cause : ε} (h : action s = .error cause s') (next : α → EStateM ε σ β) :
    (action >>= next) s = .error cause s' := by
  show EStateM.bind action next s = _
  rw [EStateM.bind, h]

end

namespace HostAction

variable {σ α : Type} {w : World σ}

theorem look_ok {read : σ → Except HostError α} {value : α} (h : read w.host = .ok value) :
    look read w = .ok value w := by
  rw [look, h]

theorem update_ok {f : σ → Except HostError σ} {host : σ} (h : f w.host = .ok host) :
    update f w = .ok () { w with host } := by
  rw [update, h]

theorem update_error {f : σ → Except HostError σ} {cause : HostError}
    (h : f w.host = .error cause) : update f w = .error cause w := by
  rw [update, h]

end HostAction

/-! ## What actions keep -/

section

variable {ε ε' σ α β : Type} {R : σ → σ → Prop}

/-- The state that an action leaves, whether it succeeds or fails. -/
def left : EStateM.Result ε σ α → σ
  | .ok _ s => s
  | .error _ s => s

/-- The state that an action leaves, on success as on failure, is related to the one it finds. -/
def Keeps (R : σ → σ → Prop) (action : EStateM ε σ α) : Prop := ∀ s, R s (left (action s))

namespace Keeps

variable [IsPreorder σ R]

theorem pure (value : α) : Keeps R (Pure.pure value : EStateM ε σ α) := fun s => refl_of R s

theorem throw (cause : ε) : Keeps R (MonadExcept.throw cause : EStateM ε σ α) :=
  fun s => refl_of R s

theorem bind {action : EStateM ε σ α} {next : α → EStateM ε σ β} (h : Keeps R action)
    (hnext : ∀ value, Keeps R (next value)) : Keeps R (action >>= next) := by
  intro s
  have hs := h s
  show R s (left (EStateM.bind action next s))
  unfold EStateM.bind
  cases hrun : action s with
  | ok value s' =>
    rw [hrun] at hs
    exact trans_of R hs (hnext value s')
  | error cause s' =>
    rw [hrun] at hs
    exact hs

omit [IsPreorder σ R] in
theorem ite {c : Prop} [Decidable c] {action other : EStateM ε σ α} (h : Keeps R action)
    (hother : Keeps R other) : Keeps R (if c then action else other) := by
  split
  · exact h
  · exact hother

end Keeps

namespace HostAction

/-- A look at the host changes nothing. -/
theorem left_look (read : σ → Except HostError α) (w : World σ) : left (look read w) = w := by
  unfold look
  cases read w.host <;> rfl

theorem disk_update (f : σ → Except HostError σ) (w : World σ) :
    (left (update f w)).disk = w.disk := by
  unfold update
  cases f w.host <;> rfl

theorem left_onDisk (p : Path) (action : DiskAction α) (w : World σ) :
    left (onDisk p action w) = { w with disk := left (action w.disk) } := by
  unfold onDisk
  cases action w.disk <;> rfl

end HostAction

/-! ## Parts of a run -/

variable {action : EStateM ε σ α} {next : α → EStateM ε σ β} {s s' : σ}

/-- A run that succeeds has parts that succeed. -/
theorem exists_of_bind_ok {value : β} (h : (action >>= next) s = .ok value s') :
    ∃ found between, action s = .ok found between ∧ next found between = .ok value s' := by
  change EStateM.bind action next s = _ at h
  unfold EStateM.bind at h
  cases hrun : action s with
  | ok found between =>
    rw [hrun] at h
    exact ⟨found, between, rfl, h⟩
  | error cause between =>
    rw [hrun] at h
    cases h

/-- A run that fails has a part that fails, after one that succeeds or at once. -/
theorem cases_of_bind_error {cause : ε} (h : (action >>= next) s = .error cause s') :
    action s = .error cause s' ∨
      ∃ found between, action s = .ok found between ∧ next found between = .error cause s' := by
  change EStateM.bind action next s = _ at h
  unfold EStateM.bind at h
  cases hrun : action s with
  | ok found between =>
    rw [hrun] at h
    exact .inr ⟨found, between, rfl, h⟩
  | error failure between =>
    rw [hrun] at h
    cases h
    exact .inl rfl

/-- What holds after a part that fails, and after all that follows one that succeeds, holds after
the run. -/
theorem left_bind {P : σ → Prop} (herror : ∀ cause s', action s = .error cause s' → P s')
    (hok : ∀ value s', action s = .ok value s' → P (left (next value s'))) :
    P (left ((action >>= next) s)) := by
  change P (left (EStateM.bind action next s))
  unfold EStateM.bind
  cases hrun : action s with
  | ok value s' => exact hok value s' hrun
  | error cause s' => exact herror cause s' hrun

/-- What is known after a part is known before what follows it. -/
theorem left_bind_of {P Q : σ → Prop} (h : Q (left (action s))) (hleft : ∀ s', Q s' → P s')
    (hnext : ∀ value s', Q s' → P (left (next value s'))) : P (left ((action >>= next) s)) := by
  apply left_bind
  · intro cause s' hrun
    rw [hrun] at h
    exact hleft s' h
  · intro value s' hrun
    rw [hrun] at h
    exact hnext value s' h

/-! ## Looking before changing -/

/-- An action changes nothing where it fails. Where it succeeds, what it gives and what it leaves
are as told. -/
def Commits (P : α → σ → Prop) (action : EStateM ε σ α) (s : σ) : Prop :=
  match action s with
  | .ok value s' => P value s'
  | .error _ s' => s' = s

namespace Commits

variable {P : α → σ → Prop} {Q : α → Prop} {P' : β → σ → Prop}

theorem pure {value : α} (h : P value s) : Commits P (Pure.pure value : EStateM ε σ α) s := h

theorem throw (cause : ε) : Commits P (MonadExcept.throw cause : EStateM ε σ α) s := rfl

theorem get {P : σ → σ → Prop} (h : P s s) :
    Commits P (MonadState.get : EStateM ε σ σ) s := h

/-- As long as an action only looks, what follows may fail. -/
theorem bind (h : Commits (fun value s' => s' = s ∧ Q value) action s)
    (hnext : ∀ value, Q value → Commits P' (next value) s) : Commits P' (action >>= next) s := by
  unfold Commits at h ⊢
  change match EStateM.bind action next s with | .ok value s' => P' value s' | .error _ s' => s' = s
  unfold EStateM.bind
  cases hrun : action s with
  | ok value s' =>
    rw [hrun] at h
    obtain ⟨rfl, hvalue⟩ := h
    exact hnext value hvalue
  | error cause s' =>
    rw [hrun] at h
    exact h

theorem ite {c : Prop} [Decidable c] {other : EStateM ε σ α} (h : c → Commits P action s)
    (hother : ¬ c → Commits P other s) : Commits P (if c then action else other) s := by
  split
  · exact h ‹_›
  · exact hother ‹_›

theorem mono {R : α → σ → Prop} (h : Commits P action s)
    (himp : ∀ value s', P value s' → R value s') : Commits R action s := by
  unfold Commits at h ⊢
  cases hrun : action s with
  | ok value s' =>
    rw [hrun] at h
    exact himp value s' h
  | error cause s' =>
    rw [hrun] at h
    exact h

theorem of_ok {value : α} (h : Commits P action s) (hrun : action s = .ok value s') :
    P value s' := by
  unfold Commits at h
  rwa [hrun] at h

/-- A relation that holds where nothing changes holds across an action that changes nothing where it
fails. -/
theorem rel_left {R : σ → σ → Prop} (h : Commits (fun _ s' => R s s') action s) (hrefl : R s s) :
    R s (left (action s)) := by
  unfold Commits at h
  cases hrun : action s with
  | ok value s' =>
    rw [hrun] at h
    exact h
  | error cause s' =>
    rw [hrun] at h
    exact h ▸ hrefl

end Commits

end

end WorkspaceEditing
