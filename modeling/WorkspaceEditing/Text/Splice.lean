import WorkspaceEditing.Text.Lines
import WorkspaceEditing.Text.Position

/-!
# Splicing a text between two positions

A position names a place in a text only if its line exists and its column is the byte length of
some whole-character beginning of that line. Cutting there gives the text before and the text
after; replacing a range keeps the text before its start and the text after its end, and puts the
new text between them. Nothing else ever changes a buffer's text.

## Main definitions

* `Text.splitAt?` — the text before and after a position, if the position names a place.
* `Text.replace?` — the text with the range between two positions replaced.
-/

namespace WorkspaceEditing

namespace Text

/-- The text up to and with the `n`-th line feed, and the rest: the `n`-th line starts there. -/
def splitAtLine? : Nat → Text → Option (Text × Text)
  | 0, t => some ([], t)
  | _ + 1, [] => none
  | n + 1, c :: rest =>
    (splitAtLine? (if c = '\n' then n else n + 1) rest).map fun (before, after) =>
      (c :: before, after)

/-- The first `n` bytes of the first line and the rest, if a character ends there. -/
def splitAtColumn? : Nat → Text → Option (Text × Text)
  | 0, t => some ([], t)
  | _ + 1, [] => none
  | n + 1, c :: rest =>
    if c = '\n' ∨ n + 1 < c.utf8Size then none
    else (splitAtColumn? (n + 1 - c.utf8Size) rest).map fun (before, after) =>
      (c :: before, after)

/-- The text before and the text after a position. A line that does not exist, a column past the
end of its line and a column inside a character name no place. -/
def splitAt? (p : BytePosition) (t : Text) : Option (Text × Text) := do
  let (linesBefore, rest) ← splitAtLine? p.line t
  let (before, after) ← splitAtColumn? p.column rest
  pure (linesBefore ++ before, after)

/-- The text with the range replaced by `insert`. Both ends have to name places, and the start
must not lie after the end. -/
def replace? (r : ByteRange) (insert : Text) (t : Text) : Option Text := do
  let (before, _) ← splitAt? r.start t
  let (_, after) ← splitAt? r.stop t
  if r.stop < r.start then none else pure (before ++ insert ++ after)

/-! ## Cutting loses nothing -/

theorem append_of_splitAtLine? {n : Nat} {t before after : Text}
    (h : splitAtLine? n t = some (before, after)) : before ++ after = t := by
  induction t generalizing n before with
  | nil => cases n <;> simp_all [splitAtLine?]
  | cons c t ih =>
    cases n with
    | zero => simp_all [splitAtLine?]
    | succ n =>
      rw [splitAtLine?] at h
      obtain ⟨⟨b, a⟩, hs, heq⟩ := Option.map_eq_some_iff.1 h
      obtain ⟨rfl, rfl⟩ := Prod.mk.inj heq
      simp [ih hs]

theorem append_of_splitAtColumn? {n : Nat} {t before after : Text}
    (h : splitAtColumn? n t = some (before, after)) : before ++ after = t := by
  induction t generalizing n before with
  | nil => cases n <;> simp_all [splitAtColumn?]
  | cons c t ih =>
    cases n with
    | zero => simp_all [splitAtColumn?]
    | succ n =>
      rw [splitAtColumn?] at h
      split at h
      · simp at h
      · obtain ⟨⟨b, a⟩, hs, heq⟩ := Option.map_eq_some_iff.1 h
        obtain ⟨rfl, rfl⟩ := Prod.mk.inj heq
        simp [ih hs]

/-- The two parts of a cut text are the text. -/
theorem append_of_splitAt? {p : BytePosition} {t before after : Text}
    (h : splitAt? p t = some (before, after)) : before ++ after = t := by
  simp only [splitAt?, Option.bind_eq_bind, Option.bind_eq_some_iff, Option.pure_def,
    Option.some.injEq, Prod.mk.injEq] at h
  obtain ⟨⟨l, rest⟩, hl, ⟨b, a⟩, hc, rfl, rfl⟩ := h
  have hrest : b ++ a = rest := append_of_splitAtColumn? hc
  rw [← append_of_splitAtLine? hl, ← hrest, ← List.append_assoc]

end Text

end WorkspaceEditing
