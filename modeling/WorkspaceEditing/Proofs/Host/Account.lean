import WorkspaceEditing.Proofs.Editor.Replacement
import WorkspaceEditing.Proofs.Session.Steps

/-!
# Accounts of actions

An action on an open buffer makes calls, and finds what it reads in the buffer. Which calls it
makes, and what it gives, is the same for the editor as a host and for the editor behind a wrapper,
as long as the calls succeed as they do in the editor. So it is told once, for any account of what
actions do.

## Main definitions

* `Host.Account` — an account of the calls that actions make and the values that they give.
* `Editor.account` — the account of the editor itself, whose calls on an open buffer succeed.
-/

namespace WorkspaceEditing

open Session

/-! ## Calls of the editor that succeed -/

namespace Editor

variable {w : World Editor} {id : BufferId} {b : Buffer} {win : Window}

section

variable (h : w.host.buffer? id = some b)
include h

theorem lineCount_ok : asHost.lineCount id w = .ok b.text.lineCount w := by
  show HostAction.look (·.lineCount id) w = _
  exact HostAction.look_ok (by rw [lineCount, buffer_eq h]; rfl)

theorem line_ok (index : Nat) : asHost.line id index w = .ok (b.text.line? index) w := by
  show HostAction.look (·.line id index) w = _
  exact HostAction.look_ok (by rw [line, buffer_eq h]; rfl)

theorem marks_ok : asHost.marks id w = .ok b.marks w := by
  show HostAction.look (·.marks id) w = _
  exact HostAction.look_ok (by rw [marks, buffer_eq h]; rfl)

theorem fixesEndOfLine_ok : asHost.fixesEndOfLine id w = .ok b.fixesEndOfLine w := by
  show HostAction.look (·.fixesEndOfLine id) w = _
  exact HostAction.look_ok (by rw [fixesEndOfLine, buffer_eq h]; rfl)

theorem setListed_ok : asHost.setListed id w =
    .ok () { w with host := w.host.putBuffer { b with listed := true } } := by
  show HostAction.update (·.setListed id) w = _
  exact HostAction.update_ok (by rw [setListed, buffer_eq h]; rfl)

theorem setMarks_ok (ms : List Mark) : asHost.setMarks id ms w = .ok () { w with
    host := w.host.putBuffer { b with
      marks := ms.foldl (fun all m => Marks.set m all) b.marks } } := by
  show HostAction.update (·.setMarks id ms) w = _
  exact HostAction.update_ok (by rw [setMarks, buffer_eq h]; rfl)

theorem setText_ok {r : Replacement} (hr : r.Fits b.text) : asHost.setText id r.range r.newLines w =
    .ok () { w with host := w.host.amended b r } := by
  show HostAction.update (·.setText id r.range r.newLines) w = _
  exact HostAction.update_ok (setText_eq h hr)

end

theorem setCursor_ok (hfocus : w.host.focusedWindow? = some win)
    (h : w.host.buffer? win.buffer = some b) {p : BytePosition} (hp : b.text.holds p = true) :
    asHost.setCursor p w = .ok () { w with host := w.host.putWindow { win with cursor := p } } := by
  show HostAction.update (·.setCursor p) w = _
  obtain ⟨focus, hf, hwin⟩ := Option.bind_eq_some_iff.1 hfocus
  apply HostAction.update_ok
  simp only [setCursor, hf, window, hwin, bind, Except.bind, buffer_eq h, hp, if_true]
  rfl

end Editor

/-! ## Accounts -/

/-- An account of what actions of a host do to an editor, where calls on an open buffer succeed as
they do in the editor: which of the calls that an action makes change something, and which value it
gives. -/
structure Host.Account {σ : Type} (host : Host σ) where
  Does : {α : Type} → HostAction σ α → List Call → α → World Editor → Prop
  pure : ∀ {α : Type} (value : α) {w : World Editor}, Does (Pure.pure value) [] value w
  bind : ∀ {α β : Type} {action : HostAction σ α} {next : α → HostAction σ β}
    {calls calls' : List Call} {value : α} {value' : β} {w : World Editor},
    Does action calls value w → Does (next value) calls' value' (calls.foldl callWorld w) →
      Does (action >>= next) (calls ++ calls') value' w
  line : ∀ {w : World Editor} {id : BufferId} {b : Buffer}, w.host.buffer? id = some b →
    ∀ index, Does (host.line id index) [] (b.text.line? index) w
  lineCount : ∀ {w : World Editor} {id : BufferId} {b : Buffer}, w.host.buffer? id = some b →
    Does (host.lineCount id) [] b.text.lineCount w
  marks : ∀ {w : World Editor} {id : BufferId} {b : Buffer}, w.host.buffer? id = some b →
    Does (host.marks id) [] b.marks w
  fixesEndOfLine : ∀ {w : World Editor} {id : BufferId} {b : Buffer},
    w.host.buffer? id = some b → Does (host.fixesEndOfLine id) [] b.fixesEndOfLine w
  focusedBuffer : ∀ w : World Editor, Does host.focusedBuffer [] w.host.focusedBuffer? w
  cursor : ∀ w : World Editor, Does host.cursor [] w.host.cursor? w
  setListed : ∀ {w : World Editor} {id : BufferId} {b : Buffer}, w.host.buffer? id = some b →
    Does (host.setListed id) [.setListed id] () w
  setText : ∀ {w : World Editor} {id : BufferId} {b : Buffer} {r : Replacement},
    w.host.buffer? id = some b → r.Fits b.text →
      Does (host.setText id r.range r.newLines) [.setText id r.range r.newLines] () w
  setMarks : ∀ {w : World Editor} {id : BufferId} {b : Buffer}, w.host.buffer? id = some b →
    ∀ ms, Does (host.setMarks id ms) [.setMarks id ms] () w
  setCursor : ∀ {w : World Editor} {win : Window} {b : Buffer} {p : BytePosition},
    w.host.focusedWindow? = some win → w.host.buffer? win.buffer = some b →
      b.text.holds p = true → Does (host.setCursor p) [.setCursor p] () w

namespace Host.Account

variable {σ α β : Type} {host : Host σ} (account : host.Account) {action other : HostAction σ α}
  {next : α → HostAction σ β} {calls calls' : List Call} {value : α} {value' : β}
  {w w' : World Editor}

/-- What follows an action that only looks finds the world as it was. -/
theorem look_bind (h : account.Does action [] value w)
    (hnext : account.Does (next value) calls' value' w) :
    account.Does (action >>= next) calls' value' w := account.bind h hnext

/-- What follows an action finds the world that its calls leave. -/
theorem bind_of_eq (h : account.Does action calls value w) (hw : calls.foldl callWorld w = w')
    (hnext : account.Does (next value) calls' value' w') :
    account.Does (action >>= next) (calls ++ calls') value' w := account.bind h (hw ▸ hnext)

/-- What follows either of two actions follows the one that is run. -/
theorem ite_bind {c : Prop} [Decidable c]
    (h : account.Does (if c then action else other) calls value w)
    (hw : calls.foldl callWorld w = w') (hnext : account.Does (next value) calls' value' w') :
    account.Does (if c then action >>= next else other >>= next) (calls ++ calls') value' w := by
  split_ifs at h ⊢
  · exact account.bind_of_eq h hw hnext
  · exact account.bind_of_eq h hw hnext

/-- What follows either of two actions that only look finds the world as it was. -/
theorem ite_look_bind {c : Prop} [Decidable c]
    (h : account.Does (if c then action else other) [] value w)
    (hnext : account.Does (next value) calls' value' w) :
    account.Does (if c then action >>= next else other >>= next) calls' value' w :=
  account.ite_bind h rfl hnext

end Host.Account

namespace Editor

variable {ε σ α : Type}

theorem eq_ok_left {action : EStateM ε σ α} {value : α} {s s' : σ} (h : action s = .ok value s') :
    action s = .ok value (left (action s)) := by rw [h]; rfl

/-- The calls of the editor on an open buffer succeed. -/
def account : asHost.Account where
  Does action calls value w := action w = .ok value (calls.foldl callWorld w)
  pure _ := rfl
  bind h hnext := by
    rw [bind_of_ok h, List.foldl_append]
    exact hnext
  line h := line_ok h
  lineCount h := lineCount_ok h
  marks h := marks_ok h
  fixesEndOfLine h := fixesEndOfLine_ok h
  focusedBuffer _ := rfl
  cursor _ := rfl
  setListed h := eq_ok_left (setListed_ok h)
  setText h hr := eq_ok_left (setText_ok h hr)
  setMarks h ms := eq_ok_left (setMarks_ok h ms)
  setCursor hfocus h hp := eq_ok_left (setCursor_ok hfocus h hp)

/-! ## What the calls leave -/

variable {w : World Editor} {id : BufferId} {b : Buffer}

theorem callWorld_setListed (h : w.host.buffer? id = some b) : callWorld w (.setListed id) =
    { w with host := w.host.putBuffer { b with listed := true } } := congrArg left (setListed_ok h)

theorem callWorld_setText {r : Replacement} (h : w.host.buffer? id = some b) (hr : r.Fits b.text) :
    callWorld w (.setText id r.range r.newLines) = { w with host := w.host.amended b r } :=
  congrArg left (setText_ok h hr)

theorem callWorld_setMarks (h : w.host.buffer? id = some b) (ms : List Mark) :
    callWorld w (.setMarks id ms) = { w with
      host := w.host.putBuffer { b with
        marks := ms.foldl (fun all m => Marks.set m all) b.marks } } :=
  congrArg left (setMarks_ok h ms)

theorem callWorld_setCursor {win : Window} (hfocus : w.host.focusedWindow? = some win)
    (h : w.host.buffer? win.buffer = some b) {p : BytePosition} (hp : b.text.holds p = true) :
    callWorld w (.setCursor p) = { w with host := w.host.putWindow { win with cursor := p } } :=
  congrArg left (setCursor_ok hfocus h hp)

end Editor

end WorkspaceEditing
