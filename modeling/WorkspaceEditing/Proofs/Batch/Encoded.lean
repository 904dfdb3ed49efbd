import WorkspaceEditing.Proofs.Batch.Splice

/-!
# Batches in another encoding

Offsets in bytes name the same places of a text as offsets in the code units of another encoding.
A valid batch, given in bytes and written in any encoding, does the same to a buffer and to the
cursors and marks in it. Its places keep their order, so the edits are applied in the same order;
and up to where the next edit ends the text is still the one before the batch, so both runs read
the same places of it, whatever has been put in behind.

## Main definitions

* `Protocol.Position.encoded`, `Protocol.TextEdit.encoded` — a place and an edit given in bytes,
  written in an encoding.

## Main results

* `Protocol.Position.encoded_place` — the place of a beginning of a text is written as its place.
* `Protocol.applicationOrder_encoded` — the edits are applied in the same order.
* `Protocol.replacementIn_encoded` — each asks for the same replacement.
* `Buffer.callsOfBatch_encoded` — the batch makes the same calls.
* `Applier.applyTextEdits_encoded` — the batch does the same in all encodings.
-/

namespace WorkspaceEditing

open Protocol

theorem Encoding.place_le_iff {e : Encoding} {s s' t : Text} (hs : s <+: t) (hs' : s' <+: t) :
    e.place s ≤ e.place s' ↔ s <+: s' := by
  constructor
  · exact prefix_of_place_le hs hs'
  · rintro ⟨m, rfl⟩
    exact place_le_append e s m

namespace Protocol

/-! ## Places -/

/-- The place at a byte offset of a line, the offset counted in an encoding. -/
def Position.encoded (p : Position) (e : Encoding) (t : Text) : Position :=
  ⟨p.line, e.units (Text.upTo .utf8 ((t.line? p.line).getD []) ⟨0, p.character⟩)⟩

/-- The range between two byte offsets, both counted in an encoding. -/
def Range.encoded (r : Range) (e : Encoding) (t : Text) : Range :=
  ⟨r.start.encoded e t, r.stop.encoded e t⟩

/-- The edit of a range between two byte offsets, both counted in an encoding. -/
def TextEdit.encoded (edit : TextEdit) (e : Encoding) (t : Text) : TextEdit :=
  { edit with range := edit.range.encoded e t }

namespace Position

/-- The place at which a beginning of a text ends is written as the place at which it ends. -/
theorem encoded_place (e : Encoding) (s x : Text) :
    (Encoding.utf8.place s).encoded e (s ++ x) = e.place s := by
  have hline : (s ++ x).line? (Encoding.utf8.place s).line = some (s.lastLine ++ x.firstLine) :=
    Text.line?_append s x
  have hplace := Encoding.place_of_not_mem (e := .utf8) (Text.not_mem_lastLine s)
  have hupTo := Text.upTo_place .utf8 s.lastLine x.firstLine
  rw [hplace] at hupTo
  rw [encoded, hline, Option.getD_some]
  exact congrArg (fun u => (⟨_, e.units u⟩ : Position)) hupTo

variable {e : Encoding} {t : Text} {p q : Position}

theorem encoded_eq (hp : p.IsExact .utf8 t) : p.encoded e t = e.place (t.upTo .utf8 p) := by
  obtain ⟨s, x, rfl, rfl⟩ := isExact_iff.1 hp
  rw [encoded_place, Text.upTo_place]

theorem isExact_encoded (hp : p.IsExact .utf8 t) : (p.encoded e t).IsExact e t := by
  obtain ⟨s, x, rfl, rfl⟩ := isExact_iff.1 hp
  exact isExact_iff.2 ⟨s, x, rfl, (encoded_place e s x).symm⟩

/-- In front of a place stands the same, however its offset is counted. -/
theorem upTo_encoded (hp : p.IsExact .utf8 t) : t.upTo e (p.encoded e t) = t.upTo .utf8 p := by
  obtain ⟨s, x, rfl, rfl⟩ := isExact_iff.1 hp
  rw [encoded_place, Text.upTo_place, Text.upTo_place]

/-- Places keep their order. -/
theorem encoded_le_iff (hp : p.IsExact .utf8 t) (hq : q.IsExact .utf8 t) :
    p.encoded e t ≤ q.encoded e t ↔ p ≤ q := by
  have hbytes := Encoding.place_le_iff (e := .utf8) (Text.upTo_isPrefix .utf8 t p)
    (Text.upTo_isPrefix .utf8 t q)
  rw [Text.place_upTo hp, Text.place_upTo hq] at hbytes
  rw [encoded_eq hp, encoded_eq hq, hbytes,
    Encoding.place_le_iff (Text.upTo_isPrefix .utf8 t p) (Text.upTo_isPrefix .utf8 t q)]

theorem before_encoded (hp : p.IsExact .utf8 t) (hq : q.IsExact .utf8 t) :
    (p.encoded e t).before (q.encoded e t) = p.before q := by
  have hle : (p.encoded e t).before (q.encoded e t) = false ↔ p.before q = false :=
    encoded_le_iff hq hp
  rw [Bool.eq_iff_iff, ← Bool.not_eq_false, ← Bool.not_eq_false, hle]

end Position

/-! ## Edits -/

variable {e : Encoding} {t : Text}

theorem TextEdit.normalized_encoded {edit : TextEdit} (hstart : edit.range.start.IsExact .utf8 t)
    (hstop : edit.range.stop.IsExact .utf8 t) :
    (edit.encoded e t).normalized = edit.normalized.encoded e t := by
  have hbefore : (edit.range.encoded e t).stop.before (edit.range.encoded e t).start =
      edit.range.stop.before edit.range.start := Position.before_encoded hstop hstart
  have hrange : (edit.range.encoded e t).normalized = edit.range.normalized.encoded e t := by
    unfold Range.normalized
    rw [hbefore]
    split_ifs <;> rfl
  simp only [normalized, encoded, hrange]

/-- Putting an edit in its place commutes with a change of the edits that keeps the order of their
starts. -/
theorem map_insertInOrder (f : TextEdit → TextEdit) {edit : TextEdit} {ordered : List TextEdit}
    (h : ∀ x ∈ ordered,
      (f edit).range.start.before (f x).range.start = edit.range.start.before x.range.start) :
    (insertInOrder edit ordered).map f = insertInOrder (f edit) (ordered.map f) := by
  induction ordered with
  | nil => rfl
  | cons first rest ih =>
    have hrest := ih fun x hx => h x (List.mem_cons_of_mem _ hx)
    have hfirst := h first List.mem_cons_self
    rw [insertInOrder, List.map_cons, insertInOrder, hfirst]
    split_ifs
    · rw [List.map_cons, hrest]
    · rfl

/-- The edits are applied in the same order. -/
theorem applicationOrder_encoded {edits : List TextEdit}
    (h : ∀ edit ∈ edits, edit.range.start.IsExact .utf8 t ∧ edit.range.stop.IsExact .utf8 t) :
    applicationOrder (edits.map (·.encoded e t)) =
      (applicationOrder edits).map (·.encoded e t) := by
  induction edits using List.reverseRecOn with
  | nil => rfl
  | append_singleton edits edit ih =>
    have hedits := fun x hx => h x (List.mem_append_left _ hx)
    obtain ⟨hstart, hstop⟩ := h edit (by simp)
    have hbefore : ∀ x ∈ applicationOrder edits,
        (edit.normalized.encoded e t).range.start.before (x.encoded e t).range.start =
          edit.normalized.range.start.before x.range.start := by
      intro x hx
      obtain ⟨raw, hraw, rfl⟩ := mem_applicationOrder.1 hx
      obtain ⟨hrawStart, hrawStop⟩ := hedits raw hraw
      exact Position.before_encoded (Range.isExact_normalized hstart hstop).1
        (Range.isExact_normalized hrawStart hrawStop).1
    rw [List.map_append, List.map_singleton, applicationOrder_concat, applicationOrder_concat,
      ih hedits, TextEdit.normalized_encoded hstart hstop, map_insertInOrder _ hbefore]

/-- Edits that lie one in front of the other do so in every encoding. -/
theorem Descends.encoded {edits : List TextEdit} (h : Descends .utf8 t edits) :
    Descends e t (edits.map (·.encoded e t)) where
  exact x hx := by
    obtain ⟨edit, hedit, rfl⟩ := List.mem_map.1 hx
    obtain ⟨hstart, hstop⟩ := h.exact edit hedit
    exact ⟨Position.isExact_encoded hstart, Position.isExact_encoded hstop⟩
  ordered x hx := by
    obtain ⟨edit, hedit, rfl⟩ := List.mem_map.1 hx
    obtain ⟨hstart, hstop⟩ := h.exact edit hedit
    exact (Position.encoded_le_iff hstart hstop).2 (h.ordered edit hedit)
  apart := by
    rw [List.pairwise_map]
    refine h.apart.imp_of_mem fun {a b} ha hb hle => ?_
    exact (Position.encoded_le_iff (h.exact b hb).2 (h.exact a ha).1).2 hle

section

variable {edit : TextEdit} {rest : List TextEdit} (h : Descends .utf8 t (edit :: rest))
  (out : Text)
include h

/-- The next edit asks for the same replacement, in a text that is as it was before up to where the
edit ends. -/
theorem replacementIn_encoded :
    (edit.encoded e t).replacementIn e (t.upTo .utf8 edit.range.stop ++ out) =
      edit.replacementIn .utf8 (t.upTo .utf8 edit.range.stop ++ out) := by
  have hencoded := Text.replacementIn_upTo (e := e) h.encoded out
  have hstart : t.upTo e (edit.encoded e t).range.start = t.upTo .utf8 edit.range.start :=
    Position.upTo_encoded h.start
  have hstop : t.upTo e (edit.encoded e t).range.stop = t.upTo .utf8 edit.range.stop :=
    Position.upTo_encoded h.stop
  rw [hstart, hstop] at hencoded
  rw [hencoded, Text.replacementIn_upTo h out]
  rfl

/-- And it leaves a cursor at the same position. -/
theorem carried_encoded :
    (edit.encoded e t).carried e (t.upTo .utf8 edit.range.stop ++ out) =
      edit.carried .utf8 (t.upTo .utf8 edit.range.stop ++ out) := by
  funext cursor
  have hline : (edit.encoded e t).range.start.line = edit.range.start.line := rfl
  simp only [TextEdit.carried, hline, replacementIn_encoded h out]

end

end Protocol

/-! ## Runs -/

section

variable {b : Buffer} {e : Encoding} {t : Text} {edits ordered : List TextEdit}

/-- Edits that lie one in front of the other are the same calls in every encoding, and leave the
same buffer and the same cursor, as long as the text is as it was before up to where the first of
them ends. -/
theorem Buffer.run_encoded (h : Descends .utf8 t ordered) {out : Text}
    (htext : b.text = t.upTo .utf8 (nextStop ordered) ++ out) (id : BufferId) :
    b.text.callsToEdit e id (ordered.map (·.encoded e t)) = b.text.callsToEdit .utf8 id ordered ∧
      b.edited e (ordered.map (·.encoded e t)) = b.edited .utf8 ordered ∧
      b.text.carried e (ordered.map (·.encoded e t)) = b.text.carried .utf8 ordered := by
  induction ordered generalizing b out with
  | nil => exact ⟨rfl, rfl, rfl⟩
  | cons edit rest ih =>
    have hreplacement : (edit.encoded e t).replacementIn e b.text =
        edit.replacementIn .utf8 b.text := by
      rw [htext]
      exact replacementIn_encoded h out
    have hcarried : (edit.encoded e t).carried e b.text = edit.carried .utf8 b.text := by
      rw [htext]
      exact carried_encoded h out
    have hleft : (b.amended (edit.replacementIn .utf8 b.text)).text = _ :=
      htext ▸ Text.amended_upTo h out
    obtain ⟨hcalls, hedited, hmoved⟩ := ih h.tail hleft
    rw [List.map_cons]
    refine ⟨?_, ?_, ?_⟩
    · rw [Text.callsToEdit, Text.callsToEdit, hreplacement]
      exact congrArg _ hcalls
    · rw [Buffer.edited, List.foldl_cons, hreplacement]
      exact hedited
    · funext c
      rw [Text.carried, Text.carried, hreplacement, hcarried]
      exact congrFun hmoved _

/-- A valid batch is the same calls in every encoding as in bytes. -/
theorem Buffer.callsOfBatch_encoded (config : Config) (hvalid : ValidBatch .utf8 b.text edits)
    (cursor : Option BytePosition) :
    b.callsOfBatch config e (edits.map (·.encoded e b.text)) cursor =
      b.callsOfBatch config .utf8 edits cursor := by
  have horder : applicationOrder (edits.map (·.encoded e b.text)) =
      (applicationOrder edits).map (·.encoded e b.text) := applicationOrder_encoded hvalid.exact
  obtain ⟨hcalls, hedited, hmoved⟩ := Buffer.run_encoded (e := e) (b := { b with listed := true })
    hvalid.descends (Text.upTo_append_after .utf8 b.text _).symm b.id
  have hafter : b.afterEdits e (edits.map (·.encoded e b.text)) = b.afterEdits .utf8 edits := by
    rw [Buffer.afterEdits, horder]
    exact hedited
  have htrim : b.afterTrim config e (edits.map (·.encoded e b.text)) =
      b.afterTrim config .utf8 edits := by
    rw [Buffer.afterTrim, Buffer.afterTrim, hafter]
  have hcarried : b.text.carried e ((applicationOrder edits).map (·.encoded e b.text)) =
      b.text.carried .utf8 (applicationOrder edits) := hmoved
  rw [Buffer.callsOfBatch, Buffer.callsOfBatch, Buffer.afterBatch_eq_repaired,
    Buffer.afterBatch_eq_repaired, hafter, htrim, horder, hcarried]
  rw [show b.text.callsToEdit e b.id _ = _ from hcalls]

end

namespace Applier

variable {w : World Editor} {id : BufferId} {b : Buffer} (config : Config)

/-- A valid batch does the same in every encoding as in bytes. -/
theorem applyTextEdits_encoded_eq {e : Encoding} (h : w.host.buffer? id = some b)
    {edits : List TextEdit} (hvalid : ValidBatch .utf8 b.text edits) :
    applyTextEdits ⟨Editor.asHost, config, e⟩ id (edits.map (·.encoded e b.text)) w =
      applyTextEdits ⟨Editor.asHost, config, .utf8⟩ id edits w := by
  by_cases hedits : edits = []
  · subst hedits
    rfl
  have hne : edits.map (·.encoded e b.text) ≠ [] := by simpa using hedits
  have hencoded := applyTextEdits_does (a := ⟨Editor.asHost, config, e⟩) Editor.account h hne
  have hbytes := applyTextEdits_does (a := ⟨Editor.asHost, config, .utf8⟩) Editor.account h hedits
  rw [Buffer.callsOfBatch_encoded config hvalid] at hencoded
  exact hencoded.trans hbytes.symm

/-- A valid batch, given in bytes and written in any encoding, succeeds, and leaves the same texts,
marks, cursors and files in all of them. -/
theorem applyTextEdits_encoded (h : w.host.buffer? id = some b) {edits : List TextEdit}
    (hvalid : ValidBatch .utf8 b.text edits) :
    ∃ w', applyTextEdits ⟨Editor.asHost, config, .utf8⟩ id edits w = .ok () w' ∧
      ∀ e, applyTextEdits ⟨Editor.asHost, config, e⟩ id (edits.map (·.encoded e b.text)) w =
        .ok () w' := by
  obtain ⟨w', hrun⟩ : ∃ w', applyTextEdits ⟨Editor.asHost, config, .utf8⟩ id edits w =
      .ok () w' := by
    by_cases hedits : edits = []
    · subst hedits
      exact ⟨w, rfl⟩
    · obtain ⟨host, -, -, hrun⟩ := applyTextEdits_ok config .utf8 h hedits
      exact ⟨_, hrun⟩
  refine ⟨w', hrun, fun e => ?_⟩
  rw [applyTextEdits_encoded_eq config h hvalid, hrun]

/-- Behind a character that is four bytes, two units of UTF-16 and one code point, a letter is
replaced and one put in. -/
theorem applyTextEdits_encoded_wide :
    let t : Text := ['😀', 'a', 'é']
    let edits : List TextEdit := [⟨⟨⟨0, 7⟩, ⟨0, 7⟩⟩, ['ü']⟩, ⟨⟨⟨0, 5⟩, ⟨0, 4⟩⟩, ['😀', '\n']⟩]
    let w : World Editor := ⟨(Editor.empty.insertBuffer ⟨[]⟩ t).2, .empty⟩
    ValidBatch .utf8 t edits ∧
      edits.map (·.encoded .utf16 t) =
        [⟨⟨⟨0, 4⟩, ⟨0, 4⟩⟩, ['ü']⟩, ⟨⟨⟨0, 3⟩, ⟨0, 2⟩⟩, ['😀', '\n']⟩] ∧
      ∃ w', applyTextEdits ⟨Editor.asHost, .standard, .utf8⟩ ⟨1⟩ edits w = .ok () w' ∧
        ∀ e, applyTextEdits ⟨Editor.asHost, .standard, e⟩ ⟨1⟩ (edits.map (·.encoded e t)) w =
          .ok () w' := by
  intro t edits w
  have hvalid : ValidBatch .utf8 t edits := by decide
  have hbuffer : w.host.buffer? ⟨1⟩ = some (Buffer.new ⟨1⟩ ⟨[]⟩ t) := rfl
  exact ⟨hvalid, by decide, applyTextEdits_encoded .standard hbuffer hvalid⟩

end Applier

end WorkspaceEditing
