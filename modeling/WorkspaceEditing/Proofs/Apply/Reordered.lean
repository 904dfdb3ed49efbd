import Mathlib.Data.List.Find
import WorkspaceEditing.Proofs.Apply.Refused
import WorkspaceEditing.Proofs.Batch.Windows

/-!
# The order of documents

Text edits of several documents may come in any order, and in any form that a workspace edit has
for them. If the documents are open, under different paths, then the batch of each finds its buffer
as it was at first, changes this buffer and the cursors in it, and nothing that another batch looks
at. So the order is of no account.

## Main definitions

* `Protocol.WorkspaceEdit.Carries` — the forms in which a workspace edit carries text edits.
* `Protocol.DocumentEdit.result` — what comes of the text edits of an open document.
* `Editor.edited` — the editor after the text edits of a document.

## Main results

* `Editor.edited_comm` — the edits of two documents may be applied in either order.
* `Applier.applyChanges_documents` — what a run of text edits of open documents comes to.
* `Applier.applyWorkspaceEdit_reordered` — the same in any order and in any form.
-/

namespace WorkspaceEditing

open Protocol

/-! ## Documents -/

/-- A workspace edit carries the text edits of some documents, in whatever order: as ordered
changes, told apart from file operations or not, or in the older form by document. -/
inductive Protocol.WorkspaceEdit.Carries (entries : List DocumentEdit) : WorkspaceEdit → Prop
  | edits {order : List DocumentEdit} (h : order.Perm entries)
      (older : Option (List DocumentEdit)) :
      Carries entries ⟨some (.edits order), older⟩
  | operations {order : List DocumentEdit} (h : order.Perm entries)
      (older : Option (List DocumentEdit)) :
      Carries entries ⟨some (.operations (order.map .edit)), older⟩
  | byDocument {order : List DocumentEdit} (h : order.Perm entries) :
      Carries entries ⟨none, some order⟩

/-- The URIs of two documents do not lead to the same path. -/
def Protocol.DocumentEdit.Apart (c d : DocumentEdit) : Prop :=
  ∀ p q, c.uri.toPath? = some p → d.uri.toPath? = some q → p.same q = false

/-- What comes of the text edits of a document that is open, if its URI leads to a path. -/
def Protocol.DocumentEdit.result (c : DocumentEdit) : Except ApplyError ChangeStatus :=
  if c.edits = [] ∨ c.uri.toPath?.isSome then .ok .applied else .error (.invalidUri c.uri)

/-- The open buffer of a document. -/
def Editor.document? (e : Editor) (uri : Uri) : Option Buffer :=
  uri.toPath?.bind fun path => e.buffers.find? fun b => b.path.same path

/-- If the URI of a document leads to a path, then the document is open. -/
def Editor.IsOpen (e : Editor) (uri : Uri) : Prop :=
  ∀ p, uri.toPath? = some p → (e.findBuffer? p).isSome = true

/-- The editor `e` after the text edits of a document that is there as it is in `base`. -/
def Editor.edited (config : Config) (enc : Encoding) (base e : Editor) (c : DocumentEdit) :
    Editor :=
  match base.document? c.uri with
  | some b =>
    if c.edits = [] then e
    else e.adapted (b.afterBatch config enc c.edits) (b.movedByBatch config enc c.edits base.focus)
  | none => e

instance (c d : DocumentEdit) : Decidable (c.Apart d) :=
  decidable_of_iff (∀ p ∈ c.uri.toPath?, ∀ q ∈ d.uri.toPath?, p.same q = false)
    ⟨fun h p q hp hq => h p hp q hq, fun h p hp q hq => h p q hp hq⟩

instance (e : Editor) (uri : Uri) : Decidable (e.IsOpen uri) :=
  inferInstanceAs (Decidable (∀ p ∈ uri.toPath?, (e.findBuffer? p).isSome = true))

instance : Std.Symm DocumentEdit.Apart where
  symm c d h := by
    intro p q hp hq
    have hne := h q p hq hp
    rw [Path.same, Bool.eq_false_iff, Ne, beq_iff_eq] at hne ⊢
    exact fun heq => hne heq.symm

namespace Editor

variable {config : Config} {enc : Encoding} {base e e' : Editor} {b : Buffer} {c d : DocumentEdit}
  {uri : Uri}

/-! ## The buffer of a document -/

theorem document?_eq_some (h : e.document? uri = some b) :
    b ∈ e.buffers ∧ ∃ p, uri.toPath? = some p ∧ b.path.same p = true ∧
      e.findBuffer? p = some b.id := by
  obtain ⟨p, hp, hfind⟩ := Option.bind_eq_some_iff.1 h
  refine ⟨List.mem_of_find?_eq_some hfind, p, hp, by simpa using List.find?_some hfind, ?_⟩
  rw [findBuffer?, hfind]
  rfl

theorem exists_document? (h : e.IsOpen uri) {p : Path} (hp : uri.toPath? = some p) :
    ∃ b, e.document? uri = some b := by
  obtain ⟨id, hid⟩ := Option.isSome_iff_exists.1 (h p hp)
  obtain ⟨b, hb, -⟩ := Option.map_eq_some_iff.1 hid
  exact ⟨b, by rw [document?, hp, Option.bind_some, hb]⟩

theorem IsOpen.congr (h : e.IsOpen uri) (heq : e'.document? uri = e.document? uri) :
    e'.IsOpen uri := by
  intro p hp
  obtain ⟨b, hb⟩ := exists_document? h hp
  obtain ⟨-, q, hq, -, hfind⟩ := document?_eq_some (heq.trans hb)
  obtain rfl : p = q := Option.some.inj (hp.symm.trans hq)
  rw [hfind]
  rfl

/-- Documents under different paths have different buffers. -/
theorem id_ne_of_apart (hn : e.Numbered) (hapart : c.Apart d) {b' : Buffer}
    (hb : e.document? c.uri = some b) (hb' : e.document? d.uri = some b') : b.id ≠ b'.id := by
  obtain ⟨hmem, p, hp, hsame, -⟩ := document?_eq_some hb
  obtain ⟨hmem', q, hq, hsame', -⟩ := document?_eq_some hb'
  intro hid
  obtain rfl := hn.eq_of_id hmem hmem' hid
  have hne := hapart p q hp hq
  rw [Path.same, beq_iff_eq] at hsame hsame'
  rw [Path.same, ← hsame, hsame', beq_self_eq_true] at hne
  cases hne

/-- Another state of a buffer, with the same path, is of no account for other documents. -/
theorem document?_adapted (hn : e.Numbered) {b' : Buffer} (hb : b ∈ e.buffers) (hid : b'.id = b.id)
    (hpath : b'.path = b.path) (move : WindowId → BytePosition → BytePosition)
    (hother : ∀ p, uri.toPath? = some p → b.path.same p = false) :
    (e.adapted b' move).document? uri = e.document? uri := by
  cases hp : uri.toPath? with
  | none => rw [document?, document?, hp]; rfl
  | some p =>
    have hput : ∀ x ∈ e.buffers, ((fun x : Buffer => x.path.same p) ∘ fun x =>
        if x.id = b'.id then b' else x) x = (fun x : Buffer => x.path.same p) x := by
      intro x hx
      simp only [Function.comp_apply]
      split_ifs with h
      · rw [hpath, hn.eq_of_id hx hb (h.trans hid)]
      · rfl
    rw [document?, document?, hp, Option.bind_some, Option.bind_some]
    show (e.buffers.map fun x => if x.id = b'.id then b' else x).find? _ = _
    rw [List.find?_map, List.find?_congr hput]
    cases hfind : e.buffers.find? fun x => x.path.same p with
    | none => rfl
    | some x =>
      -- the buffer that is found is another one
      have hne : x.id ≠ b'.id := by
        intro h
        have hsame : x.path.same p = true := by simpa using List.find?_some hfind
        rw [hn.eq_of_id (List.mem_of_find?_eq_some hfind) hb (h.trans hid), hother p hp] at hsame
        cases hsame
      simp [hne]

/-! ## The edits of one document -/

/-- What is written depends on the buffer of the document, and on the focus. -/
theorem edited_congr (hdocument : base.document? c.uri = e.document? c.uri)
    (hfocus : base.focus = e.focus) : edited config enc base e c = edited config enc e e c := by
  unfold edited
  rw [hdocument, hfocus]

theorem sameHandles_edited (config : Config) (enc : Encoding) (base e : Editor) (c : DocumentEdit) :
    SameHandles e (edited config enc base e c) := by
  unfold edited
  split
  · split_ifs
    · exact ⟨rfl, rfl, rfl, rfl⟩
    · exact sameHandles_adapted e _ _
  · exact ⟨rfl, rfl, rfl, rfl⟩

/-- The edits of a document leave the buffers of others alone. -/
theorem document?_edited (hn : e.Numbered) (hdocument : e.document? c.uri = base.document? c.uri)
    (hapart : c.Apart d) :
    (edited config enc base e c).document? d.uri = e.document? d.uri := by
  unfold edited
  cases hb : base.document? c.uri with
  | none => rfl
  | some b =>
    obtain ⟨hmem, p, hp, hsame, -⟩ := document?_eq_some (hdocument.trans hb)
    dsimp only
    split_ifs
    · rfl
    · refine document?_adapted hn hmem (Buffer.id_afterBatch ..) (Buffer.path_afterBatch ..) _ ?_
      intro q hq
      rw [Path.same, beq_iff_eq] at hsame
      rw [Path.same, hsame]
      exact hapart p q hp hq

/-- The edits of two documents may be applied in either order. -/
theorem edited_comm (hn : base.Numbered) (hapart : c.Apart d) (e : Editor) :
    edited config enc base (edited config enc base e c) d =
      edited config enc base (edited config enc base e d) c := by
  unfold edited
  cases hb : base.document? c.uri with
  | none => rfl
  | some b =>
    cases hb' : base.document? d.uri with
    | none => rfl
    | some b' =>
      have hne : (b.afterBatch config enc c.edits).id ≠ (b'.afterBatch config enc d.edits).id := by
        rw [Buffer.id_afterBatch, Buffer.id_afterBatch]
        exact id_ne_of_apart hn hapart hb hb'
      dsimp only
      split_ifs
      · rfl
      · rfl
      · rfl
      · exact adapted_comm e hne

end Editor

namespace Applier

variable {w : World Editor} {base : Editor} {entries order : List DocumentEdit} (config : Config)
  (enc : Encoding)

/-- What comes of the text edits of one open document. -/
theorem result_applyDocumentEdit (hn : w.host.Numbered) {c : DocumentEdit}
    (hopen : w.host.IsOpen c.uri) :
    ((⟨Editor.asHost, config, enc⟩ : Applier Editor).applyDocumentEdit c).result w =
      (c.result, { w with host := Editor.edited config enc w.host w.host c }) := by
  unfold applyDocumentEdit ApplyAction.result DocumentEdit.result Editor.edited
  by_cases hedits : c.edits = []
  · rw [if_pos hedits, if_pos (.inl hedits)]
    cases w.host.document? c.uri with
    | none => rfl
    | some b => simp only [if_pos hedits]; rfl
  · rw [if_neg hedits]
    cases hp : c.uri.toPath? with
    | none =>
      have hnone : w.host.document? c.uri = none := by rw [Editor.document?, hp]; rfl
      rw [bind_of_error (pathOf_error hp), hnone, if_neg (by simp [hedits])]
    | some p =>
      obtain ⟨b, hb⟩ := Editor.exists_document? hopen hp
      obtain ⟨hmem, q, hq, -, hfind⟩ := Editor.document?_eq_some hb
      obtain rfl : p = q := Option.some.inj (hp.symm.trans hq)
      have hbuffer := Editor.buffer?_of_mem hn hmem
      have hload : Editor.asHost.loadBuffer p w = .ok b.id w := Editor.loadBuffer_of_find hfind
      have hbatch := applyTextEdits_adapted config enc hn hbuffer hedits
      rw [bind_of_ok (pathOf_ok hp), bind_of_ok (ApplyAction.onHost_ok hload),
        bind_of_ok (ApplyAction.onHost_ok hbatch), hb, if_pos (.inr rfl)]
      simp only [if_neg hedits]
      rfl

/-- A run of text edits of open documents, under different paths, comes to the edits of each of them
as it was at first. -/
theorem applyChanges_documents (index : Nat) (hn : w.host.Numbered)
    (hfocus : base.focus = w.host.focus)
    (hsame : ∀ c ∈ order, w.host.document? c.uri = base.document? c.uri)
    (hopen : ∀ c ∈ order, w.host.IsOpen c.uri) (hapart : order.Pairwise DocumentEdit.Apart) :
    let run := (⟨Editor.asHost, config, enc⟩ : Applier Editor).applyChanges index
      (order.map .edit) w
    run.1.map Outcome.ending = order.map (fun c => (c.uri.toString, c.result)) ∧
      run.2 = { w with host := order.foldl (Editor.edited config enc base) w.host } := by
  induction order generalizing index w with
  | nil => exact ⟨rfl, rfl⟩
  | cons c rest ih =>
    obtain ⟨hc, hrest⟩ := List.pairwise_cons.1 hapart
    have hsameC := hsame c List.mem_cons_self
    obtain ⟨w', hw'⟩ : ∃ w' : World Editor,
        w' = { w with host := Editor.edited config enc base w.host c } := ⟨_, rfl⟩
    have hresult : ((⟨Editor.asHost, config, enc⟩ : Applier Editor).applyChange
        (.edit c)).result w = (c.result, w') := by
      rw [hw', Editor.edited_congr hsameC.symm hfocus]
      exact result_applyDocumentEdit config enc hn (hopen c List.mem_cons_self)
    -- the other documents are there as before
    have hhandles : Editor.SameHandles w.host w'.host := by
      rw [hw']
      exact Editor.sameHandles_edited config enc base w.host c
    have hothers (d : DocumentEdit) (hd : d ∈ rest) :
        w'.host.document? d.uri = w.host.document? d.uri := by
      rw [hw']
      exact Editor.document?_edited hn hsameC (hc d hd)
    obtain ⟨hendings, hworld⟩ := ih (index + 1) (hhandles.numbered hn)
      (hfocus.trans hhandles.focus.symm)
      (fun d hd => (hothers d hd).trans (hsame d (List.mem_cons_of_mem _ hd)))
      (fun d hd => (hopen d (List.mem_cons_of_mem _ hd)).congr (hothers d hd)) hrest
    simp only [List.map_cons, applyChanges, hresult, List.foldl_cons]
    refine ⟨?_, ?_⟩
    · rw [hendings]
      rfl
    · rw [hworld, hw']

/-! ## The edits of all documents -/

theorem perm_insertByUri (c : DocumentEdit) (changes : List DocumentEdit) :
    (insertByUri c changes).Perm (c :: changes) := by
  induction changes with
  | nil => exact .refl _
  | cons first rest ih =>
    unfold insertByUri
    split_ifs
    · exact .refl _
    · exact (ih.cons first).trans (.swap c first rest)

/-- In each form the text edits are applied in some order. -/
theorem exists_order_of_carries {edit : WorkspaceEdit} (h : edit.Carries entries) :
    ∃ order : List DocumentEdit, order.Perm entries ∧ changesOf edit = order.map .edit := by
  cases h with
  | edits hperm older => exact ⟨_, hperm, rfl⟩
  | operations hperm older => exact ⟨_, hperm, rfl⟩
  | @byDocument order hperm =>
    refine ⟨order.foldr insertByUri [], List.Perm.trans ?_ hperm, rfl⟩
    clear hperm
    induction order with
    | nil => exact .refl _
    | cons c rest ih => exact (perm_insertByUri c _).trans (ih.cons c)

/-- Text edits of open documents, under different paths, leave the same editor and the same files in
whatever order and form they come, and have the same results. -/
theorem applyWorkspaceEdit_reordered (hn : w.host.Numbered)
    (hopen : ∀ c ∈ entries, w.host.IsOpen c.uri) (hapart : entries.Pairwise DocumentEdit.Apart)
    {edit edit' : WorkspaceEdit} (h : edit.Carries entries) (h' : edit'.Carries entries) :
    let a : Applier Editor := ⟨Editor.asHost, config, enc⟩
    (a.applyWorkspaceEdit edit w).2 = (a.applyWorkspaceEdit edit' w).2 ∧
      ((a.applyWorkspaceEdit edit w).1.outcomes.map Outcome.ending).Perm
        ((a.applyWorkspaceEdit edit' w).1.outcomes.map Outcome.ending) := by
  intro a
  obtain ⟨order, hperm, horder⟩ := exists_order_of_carries h
  obtain ⟨order', hperm', horder'⟩ := exists_order_of_carries h'
  have hrun {order : List DocumentEdit} (hperm : order.Perm entries) :=
    applyChanges_documents (w := w) config enc 0 hn rfl (fun _ _ => rfl)
      (fun c hc => hopen c (hperm.mem_iff.1 hc))
      (hperm.symm.pairwise hapart fun hcd => symm_of DocumentEdit.Apart hcd)
  obtain ⟨hendings, hworld⟩ := hrun hperm
  obtain ⟨hendings', hworld'⟩ := hrun hperm'
  have hfold : order.foldl (Editor.edited config enc w.host) w.host =
      order'.foldl (Editor.edited config enc w.host) w.host := by
    refine (hperm.trans hperm'.symm).foldl_eq' ?_ _
    intro c hc d hd e
    by_cases heq : c = d
    · rw [heq]
    · exact Editor.edited_comm hn (hapart.forall (hperm.mem_iff.1 hc) (hperm.mem_iff.1 hd) heq) e
  simp only [applyWorkspaceEdit, horder, horder']
  refine ⟨?_, ?_⟩
  · rw [hworld, hworld', hfold]
  · rw [hendings, hendings']
    exact (hperm.trans hperm'.symm).map _

/-- Text edits of two open documents, one of which is shown in a window, and of one that is no
file. -/
theorem applyWorkspaceEdit_reordered_documents :
    let e : Editor := ⟨[.new ⟨1⟩ (.ofString "/a") ['a', 'b'], .new ⟨2⟩ (.ofString "/b") ['c']],
      [⟨⟨3⟩, ⟨1⟩, ⟨0, 1⟩⟩], some ⟨3⟩, 3⟩
    let w : World Editor := ⟨e, ⟨[]⟩⟩
    let edits : List TextEdit := [⟨⟨⟨0, 0⟩, ⟨0, 0⟩⟩, ['x', '\n']⟩]
    let first : DocumentEdit := ⟨⟨"file:///a".toList, by decide⟩, edits⟩
    let second : DocumentEdit := ⟨⟨"file:///b".toList, by decide⟩, edits⟩
    let third : DocumentEdit := ⟨⟨"untitled:c".toList, by decide⟩, edits⟩
    let edit : WorkspaceEdit := ⟨some (.edits [second, third, first]), none⟩
    let edit' : WorkspaceEdit := ⟨none, some [first, third, second]⟩
    let a : Applier Editor := ⟨Editor.asHost, .standard, .utf16⟩
    w.host.Numbered ∧ (∀ c ∈ [first, second, third], w.host.IsOpen c.uri) ∧
      [first, second, third].Pairwise DocumentEdit.Apart ∧
      edit.Carries [first, second, third] ∧ edit'.Carries [first, second, third] ∧
      (a.applyWorkspaceEdit edit w).2 = (a.applyWorkspaceEdit edit' w).2 ∧
      ((a.applyWorkspaceEdit edit w).1.outcomes.map Outcome.ending).Perm
        ((a.applyWorkspaceEdit edit' w).1.outcomes.map Outcome.ending) := by
  intro e w edits first second third edit edit' a
  have hn : w.host.Numbered := ⟨by decide, by decide⟩
  have hopen : ∀ c ∈ [first, second, third], w.host.IsOpen c.uri := by decide +kernel
  have hapart : [first, second, third].Pairwise DocumentEdit.Apart := by decide +kernel
  have h : edit.Carries [first, second, third] := .edits (by decide +kernel) none
  have h' : edit'.Carries [first, second, third] := .byDocument (by decide +kernel)
  exact ⟨hn, hopen, hapart, h, h',
    applyWorkspaceEdit_reordered .standard .utf16 hn hopen hapart h h'⟩

end Applier

end WorkspaceEditing
