import WorkspaceEditing.Proofs.Batch.Run
import WorkspaceEditing.Proofs.Host.Watched
import WorkspaceEditing.Proofs.Session.Invariant

/-!
# The order of the calls of a batch

Behind a wrapper that refuses calls, a batch of text edits makes its calls in a fixed order: the
buffer is listed, the edits are carried out, an empty last line is removed, marks are set again, and
the cursor is moved. The first call that is refused is the last that is made, so what was not yet
repaired then stays as it is, and the text is the one that the calls before have left.

## Main definitions

* `Text.afterCall` — the text of a buffer after a call.
* `Buffer.RemovesLastLine`, `Buffer.RestoresMarks`, `Buffer.MovesCursor` — the calls behind the
  edits.
* `Buffer.InBatchOrder` — the order of the calls of a batch that change something.

## Main results

* `Session.text?_callWorld` — a call changes a text only by carrying out a replacement.
* `Buffer.inBatchOrder_callsOfBatch` — the calls of a batch are in order.
* `Applier.applyTextEdits_calls` — which calls a batch makes, and what is left.
-/

namespace WorkspaceEditing

open Protocol Session

/-! ## The text of a buffer after calls -/

/-- The text of a buffer after a call. -/
def Text.afterCall (id : BufferId) (t : Text) : Call → Text
  | .setText buffer range newLines => if buffer = id then t.amended ⟨range, newLines⟩ else t
  | _ => t

namespace Session

variable {w : World Editor} {id : BufferId} {t : Text} {call : Call}

/-- A buffer that is put where another one was is of no account for the text, if its text is the
same. -/
theorem text?_retouched {e e' : Editor} {other : BufferId} (h : Editor.Retouched other e e')
    (ht : e.text? id = some t) : e'.text? id = some t := by
  obtain ⟨b, b', hb, rfl, hid, -, htext⟩ := h
  by_cases hother : id = other
  · subst hother
    rw [Editor.text?, hb] at ht
    rw [Editor.text?, Editor.buffer?_putBuffer hb hid, Option.map_some, htext]
    exact ht
  · rwa [Editor.text?, Editor.buffer?_putBuffer_of_ne (hid ▸ hother)]

theorem text?_setText {other : BufferId} {r : ByteRange} {newLines : List Text}
    (ht : w.host.text? id = some t) :
    (callWorld w (.setText other r newLines)).host.text? id =
      some (t.afterCall id (.setText other r newLines)) := by
  obtain ⟨b, hb, rfl⟩ := Option.map_eq_some_iff.1 ht
  show (left (HostAction.update (·.setText other r newLines) w)).host.text? id =
    some (if other = id then b.text.amended ⟨r, newLines⟩ else b.text)
  unfold HostAction.update
  dsimp only
  by_cases hother : other = id
  · subst hother
    rw [if_pos rfl, Editor.setText, Editor.buffer_eq hb]
    simp only [bind, Except.bind, Text.amended]
    cases hreplace : Text.replace? r (Text.ofLines newLines) b.text with
    | none =>
      have hnone : b.replace? r newLines = none := by simp [Buffer.replace?, hreplace]
      rw [hnone]
      exact ht
    | some text =>
      obtain ⟨changed, hchanged, htext⟩ : ∃ changed, b.replace? r newLines = some changed ∧
          changed.text = text := by simp [Buffer.replace?, hreplace]
      have hid : changed.id = other :=
        (Editor.id_path_of_replace? hchanged).1.trans (Editor.id_of_buffer? hb)
      rw [hchanged]
      show ((w.host.putBuffer changed).buffer? other).map Buffer.text = _
      rw [Editor.buffer?_putBuffer hb hid, Option.map_some, htext]
      rfl
  · rw [if_neg hother]
    cases hset : w.host.setText other r newLines with
    | error cause => exact ht
    | ok e =>
      obtain ⟨b', changed, hb', hreplace, rfl⟩ := Editor.cases_of_setText hset
      have hid : changed.id = other :=
        (Editor.id_path_of_replace? hreplace).1.trans (Editor.id_of_buffer? hb')
      show ((w.host.putBuffer changed).buffer? id).map Buffer.text = _
      rw [Editor.buffer?_putBuffer_of_ne (hid ▸ Ne.symm hother), hb, Option.map_some]

/-- A call changes the text of a buffer that stays open only by carrying out a replacement. -/
theorem text?_callWorld (ht : w.host.text? id = some t) (hdelete : ∀ b, call ≠ .deleteBuffer b) :
    (callWorld w call).host.text? id = some (t.afterCall id call) := by
  cases call with
  | loadBuffer path =>
    rcases host_loadBuffer path w with heq | ⟨-, text, heq⟩
    · rw [callWorld, heq]
      exact ht
    · obtain ⟨b, hb, rfl⟩ := Option.map_eq_some_iff.1 ht
      rw [callWorld, heq, Editor.text?, Editor.buffer?, Editor.insertBuffer, List.find?_append,
        show w.host.buffers.find? _ = some b from hb]
      rfl
  | setListed other =>
    exact Invariant.update (I := fun e => e.text? id = some t)
      (fun e e' h => text?_retouched (Editor.retouched_setListed h)) ht
  | setText other r newLines => exact text?_setText ht
  | setCursor p =>
    refine Invariant.update (I := fun e => e.text? id = some t) (f := (·.setCursor p))
      (fun e e' h hte => ?_) ht
    rcases Editor.cases_of_setCursor h with rfl | ⟨win, b, -, -, -, rfl⟩
    · exact hte
    · exact hte
  | setMarks other ms =>
    exact Invariant.update (I := fun e => e.text? id = some t)
      (fun e e' h => text?_retouched (Editor.retouched_setMarks h)) ht
  | deleteBuffer other => exact absurd rfl (hdelete other)
  | setWindowBuffer win other =>
    refine Invariant.update (I := fun e => e.text? id = some t)
      (f := (·.setWindowBuffer win other)) (fun e e' h hte => ?_) ht
    obtain ⟨_, b, -, rfl⟩ := Editor.cases_of_setWindowBuffer h
    exact hte
  | writeBuffer other =>
    rw [callWorld, host_writeBuffer]
    exact ht
  | line other index =>
    exact Invariant.look (I := fun e => e.text? id = some t) (·.line other index) ht
  | lineCount other =>
    exact Invariant.look (I := fun e => e.text? id = some t) (·.lineCount other) ht
  | marks other => exact Invariant.look (I := fun e => e.text? id = some t) (·.marks other) ht
  | fixesEndOfLine other =>
    exact Invariant.look (I := fun e => e.text? id = some t) (·.fixesEndOfLine other) ht

/-- Calls, one after the other, make of a text what their replacements make of it. -/
theorem text?_foldl_callWorld {calls : List Call} (ht : w.host.text? id = some t)
    (hdelete : ∀ call ∈ calls, ∀ b, call ≠ .deleteBuffer b) :
    (calls.foldl callWorld w).host.text? id = some (calls.foldl (Text.afterCall id) t) := by
  induction calls generalizing w t with
  | nil => exact ht
  | cons call rest ih =>
    exact ih (text?_callWorld ht (hdelete call List.mem_cons_self))
      fun c hc => hdelete c (List.mem_cons_of_mem _ hc)

end Session

/-! ## The order of the calls -/

namespace Buffer

/-- The calls remove an empty last line of a text, if there are any: the text is left without its
last line feed. -/
def RemovesLastLine (id : BufferId) (t : Text) (calls : List Call) : Prop :=
  calls = [] ∨ ∃ r : Replacement, calls = [.setText id r.range r.newLines] ∧
    t = t.amended r ++ ['\n']

/-- The calls set marks of the buffer again, if there are any: letter marks that the buffer `b` had,
and that it lacks as `b'`, at places of the text of `b'`. -/
def RestoresMarks (b b' : Buffer) (calls : List Call) : Prop :=
  calls = [] ∨ ∃ ms, calls = [.setMarks b.id ms] ∧ ∀ m ∈ ms,
    (∃ saved ∈ b.marks, saved.isLocalLetter = true ∧ saved.name = m.name) ∧
      m.name ∉ b'.marks.names ∧ b'.text.Has m.position

/-- The calls move the cursor, if there are any. -/
def MovesCursor (calls : List Call) : Prop := calls = [] ∨ ∃ p, calls = [.setCursor p]

/-- The calls of a batch that change something, in their order: the buffer is listed, the edits are
carried out, an empty last line is removed, marks are set again as the buffer is then, and the
cursor is moved. -/
def InBatchOrder (e : Encoding) (w : World Editor) (b : Buffer) (edits : List TextEdit)
    (calls : List Call) : Prop :=
  ∃ (edit trim repair move : List Call) (b' : Buffer),
    calls = .setListed b.id :: (edit ++ (trim ++ (repair ++ move))) ∧
    edit = b.text.callsToEdit e b.id (applicationOrder edits) ∧
    RemovesLastLine b.id (b.text.edited e (applicationOrder edits)) trim ∧
    ((.setListed b.id :: (edit ++ trim)).foldl callWorld w).host.buffer? b.id = some b' ∧
    b.RestoresMarks b' repair ∧ MovesCursor move

variable {w : World Editor} {b : Buffer}

theorem removesLastLine_callsToTrim (b : Buffer) : RemovesLastLine b.id b.text b.callsToTrim := by
  unfold callsToTrim
  split_ifs with htrims
  · obtain ⟨s, hs⟩ := List.getLast?_eq_some_iff.1
      (of_decide_eq_true (Bool.and_eq_true_iff.1 htrims).2)
    refine .inr ⟨b.text.finalBreak, rfl, ?_⟩
    rw [Text.amended_finalBreak (Bool.and_eq_true_iff.1 htrims).2, hs, List.dropLast_concat]
  · exact .inl rfl

theorem restoresMarks_callsToRepair (config : Config) {b' : Buffer} (hid : b'.id = b.id) :
    b.RestoresMarks b' (b'.callsToRepair (b.saved config)) := by
  unfold callsToRepair
  split_ifs
  · exact .inl rfl
  · refine .inr ⟨_, by rw [hid], fun m hm => ?_⟩
    obtain ⟨saved, hsaved, rfl⟩ := List.mem_map.1 hm
    obtain ⟨hmem, hlost⟩ := List.mem_filter.1 hsaved
    have hletter : saved ∈ b.marks ∧ saved.isLocalLetter = true := by
      unfold Buffer.saved at hmem
      split_ifs at hmem
      · exact List.mem_filter.1 hmem
      · simp at hmem
    refine ⟨⟨saved, hletter.1, hletter.2, rfl⟩, by simpa using hlost, ?_⟩
    exact b'.text.has_closest saved.position

/-- The calls of a batch are in order. -/
theorem inBatchOrder_callsOfBatch (h : w.host.buffer? b.id = some b) (config : Config)
    (e : Encoding) (edits : List TextEdit) (cursor : Option BytePosition) :
    InBatchOrder e w b edits (b.callsOfBatch config e edits cursor) := by
  refine ⟨_, _, _, _, b.afterTrim config e edits, rfl, rfl, ?_, ?_, ?_, ?_⟩
  · split_ifs
    · have htrim := removesLastLine_callsToTrim (b.afterEdits e edits)
      rwa [id_afterEdits, afterEdits, text_edited] at htrim
    · exact .inl rfl
  · rw [List.foldl_cons, List.foldl_append, Editor.callWorld_setListed_adapted h,
      foldl_edits h e edits, foldl_trim h config e edits]
    exact Editor.buffer?_adapted h (id_afterTrim ..)
  · exact restoresMarks_callsToRepair config (id_afterTrim ..)
  · unfold Text.callsToMove
    split
    · split_ifs
      · exact .inr ⟨_, rfl⟩
      · exact .inl rfl
    · exact .inl rfl

/-- The calls that carry edits out replace text of the buffer. -/
theorem exists_of_mem_callsToEdit {t : Text} {e : Encoding} {id : BufferId} {order : List TextEdit}
    {call : Call} (h : call ∈ t.callsToEdit e id order) :
    ∃ range newLines, call = .setText id range newLines := by
  induction order generalizing t with
  | nil => cases h
  | cons edit rest ih =>
    rcases List.mem_cons.1 h with rfl | h
    · exact ⟨_, _, rfl⟩
    · exact ih h

/-- No call of a batch gives a buffer up. -/
theorem ne_deleteBuffer_of_mem {config : Config} {e : Encoding} {edits : List TextEdit}
    {cursor : Option BytePosition} {call : Call}
    (hcall : call ∈ b.callsOfBatch config e edits cursor) (id : BufferId) :
    call ≠ .deleteBuffer id := by
  simp only [callsOfBatch, List.mem_cons, List.mem_append] at hcall
  rcases hcall with rfl | hedit | htrim | hrepair | hmove
  · simp
  · obtain ⟨range, newLines, rfl⟩ := exists_of_mem_callsToEdit hedit
    simp
  · unfold callsToTrim at htrim
    split_ifs at htrim
    · rw [List.mem_singleton.1 htrim]
      simp
    all_goals cases htrim
  · unfold callsToRepair at hrepair
    split_ifs at hrepair
    · cases hrepair
    · rw [List.mem_singleton.1 hrepair]
      simp
  · unfold Text.callsToMove at hmove
    split at hmove
    · split_ifs at hmove
      · rw [List.mem_singleton.1 hmove]
        simp
      · cases hmove
    · cases hmove

end Buffer

/-! ## The run -/

namespace Applier

variable {w : World Editor} {id : BufferId} {b : Buffer}

/-- Behind a wrapper that refuses calls as it likes, the calls of a batch that change something are
made in the order of a batch, together with calls that only look. Either none is refused; then the
batch succeeds, and all its calls are made. Or the first that is refused is the last that is made,
and its error is the result. In both cases the text is what the calls that were let through have
made of it. -/
theorem applyTextEdits_calls (refusal? : List Call → Call → Option HostError) (config : Config)
    (e : Encoding) (record : List Call) (h : w.host.buffer? id = some b) {edits : List TextEdit}
    (hedits : edits ≠ []) :
    let result := applyTextEdits ⟨Editor.asHost.watched ⟨refusal?, false⟩, config, e⟩ id edits
      (w.recorded record)
    ∃ calls made w', Buffer.InBatchOrder e w b edits calls ∧
      Watched.Allows refusal? record made ∧ w' = made.foldl callWorld w ∧
      w'.host.text? id = some (made.foldl (Text.afterCall id) b.text) ∧
      (made.filter (!·.isRead) = calls ∧ result = .ok () (w'.recorded (record ++ made)) ∨
        ∃ failed cause, (made ++ [failed]).filter (!·.isRead) <+: calls ∧
          refusal? (record ++ made) failed = some cause ∧
          result = .error cause (w'.recorded (record ++ made ++ [failed]))) := by
  intro result
  have hid : b.id = id := Editor.id_of_buffer? h
  have hdoes : Watched.Makes refusal? (applyTextEdits ⟨Editor.asHost.watched ⟨refusal?, false⟩,
      config, e⟩ id edits) (b.callsOfBatch config e edits (w.host.tracked? config id)) () w :=
    applyTextEdits_does (a := ⟨Editor.asHost.watched ⟨refusal?, false⟩, config, e⟩)
      (Watched.account refusal?) h hedits
  obtain ⟨made, hallows, hrun⟩ := hdoes.run record
  have hmade : made.filter (!·.isRead) <+:
      b.callsOfBatch config e edits (w.host.tracked? config id) := by
    rcases hrun with ⟨hcalls, -⟩ | ⟨failed, cause, hcalls, -, -⟩
    · rw [hcalls]
    · exact ((List.prefix_append made [failed]).filter _).trans hcalls
  have hdelete : ∀ call ∈ made, ∀ b', call ≠ .deleteBuffer b' := by
    intro call hcall b'
    cases hread : call.isRead with
    | true =>
      rintro rfl
      cases hread
    | false =>
      have hmem : call ∈ made.filter (!·.isRead) := List.mem_filter.2 ⟨hcall, by simp [hread]⟩
      exact Buffer.ne_deleteBuffer_of_mem (hmade.subset hmem) b'
  have htext : w.host.text? id = some b.text := by rw [Editor.text?, h]; rfl
  exact ⟨_, made, _, Buffer.inBatchOrder_callsOfBatch (hid ▸ h) config e edits _, hallows, rfl,
    text?_foldl_callWorld htext hdelete, hrun⟩

/-- Of two edits the second is refused, and the final empty line that the first has left stays. -/
theorem applyTextEdits_calls_refused :
    let b : Buffer := .new ⟨1⟩ ⟨[]⟩ ['a', 'b']
    let w : World Editor := ⟨(Editor.empty.insertBuffer ⟨[]⟩ ['a', 'b']).2, .empty⟩
    let edits : List TextEdit := [⟨⟨⟨0, 0⟩, ⟨0, 1⟩⟩, ['x']⟩, ⟨⟨⟨0, 1⟩, ⟨0, 2⟩⟩, ['c', '\n', '\n']⟩]
    let refusal? : List Call → Call → Option HostError := fun record _ =>
      if record.filter (!·.isRead) =
          [.setListed ⟨1⟩, .setText ⟨1⟩ ⟨⟨0, 1⟩, ⟨0, 2⟩⟩ [['c'], []]] then
        some (.unknownBuffer ⟨1⟩)
      else none
    let result := applyTextEdits ⟨Editor.asHost.watched ⟨refusal?, false⟩, .standard, .utf16⟩ ⟨1⟩
      edits (w.recorded [])
    w.host.buffer? ⟨1⟩ = some b ∧ edits ≠ [] ∧
      (left result).host.inner.text? ⟨1⟩ = some ['a', 'c', '\n'] ∧
      ∃ calls made w', Buffer.InBatchOrder .utf16 w b edits calls ∧
        Watched.Allows refusal? [] made ∧ w' = made.foldl callWorld w ∧
        w'.host.text? ⟨1⟩ = some (made.foldl (Text.afterCall ⟨1⟩) b.text) ∧
        (made.filter (!·.isRead) = calls ∧ result = .ok () (w'.recorded ([] ++ made)) ∨
          ∃ failed cause, (made ++ [failed]).filter (!·.isRead) <+: calls ∧
            refusal? ([] ++ made) failed = some cause ∧
            result = .error cause (w'.recorded ([] ++ made ++ [failed]))) := by
  intro b w edits refusal? result
  have hbuffer : w.host.buffer? ⟨1⟩ = some b := rfl
  have hedits : edits ≠ [] := by decide
  exact ⟨hbuffer, hedits, by decide +kernel,
    applyTextEdits_calls refusal? .standard .utf16 [] hbuffer hedits⟩

end Applier

end WorkspaceEditing
