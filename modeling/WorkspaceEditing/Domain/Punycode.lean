import WorkspaceEditing.Text.Lines

/-!
# Punycode

A label with characters beyond ASCII is written in ASCII letters, digits and hyphens: first its
ASCII characters, then a hyphen if there are any, then for each other character the distance from
the one before, counting through all places of the label and all characters from `U+0080` on. A
distance is a number in digits of base 36, the least significant first, with a threshold at every
place: a digit below it is the last.

## Main definitions

* `Punycode.decode?` — the label that a code stands for.
-/

namespace WorkspaceEditing

namespace Punycode

/-- The value of a digit: letters come before numerals. -/
def digitValue? (c : Char) : Option Nat :=
  if 'a' ≤ c ∧ c ≤ 'z' then some (c.toNat - 'a'.toNat)
  else if 'A' ≤ c ∧ c ≤ 'Z' then some (c.toNat - 'A'.toNat)
  else if '0' ≤ c ∧ c ≤ '9' then some (c.toNat - '0'.toNat + 26)
  else none

/-- The threshold of a place. -/
def threshold (place bias : Nat) : Nat :=
  if place ≤ bias then 1 else if bias + 26 ≤ place then 26 else place - bias

/-- Divides a distance by 35 until it is at most 455, and counts 36 for each time. -/
def scaleDown (distance : Nat) : Nat × Nat :=
  if 455 < distance then
    let (rest, count) := scaleDown (distance / 35)
    (rest, count + 36)
  else (distance, 0)
termination_by distance
decreasing_by omega

/-- The bias for the next distance, chosen by the size of the last one. -/
def adapt (distance size : Nat) (first : Bool) : Nat :=
  let half := if first then distance / 700 else distance / 2
  let (rest, count) := scaleDown (half + half / size)
  count + 36 * rest / (rest + 38)

/-- Reads a distance and adds it to `total`. The weight of a digit must stay below `2³²`. -/
def distance? (bias : Nat) : Nat → Nat → Nat → Text → Option (Nat × Text)
  | _, _, _, [] => none
  | place, weight, total, c :: rest => do
    let digit ← digitValue? c
    let t := threshold place bias
    let total := total + digit * weight
    if digit < t then some (total, rest)
    else if weight * (36 - t) < 0x100000000 then
      distance? bias (place + 36) (weight * (36 - t)) total rest
    else none

/-- A distance takes at least one digit. -/
theorem length_lt_of_distance? {bias place weight total n : Nat} {t rest : Text}
    (h : distance? bias place weight total t = some (n, rest)) : rest.length < t.length := by
  induction t generalizing place weight total with
  | nil => simp [distance?] at h
  | cons c t ih =>
    rw [distance?] at h
    obtain ⟨digit, -, h⟩ := Option.bind_eq_some_iff.1 h
    dsimp only at h
    split at h
    · obtain ⟨-, rfl⟩ := Prod.mk.inj (Option.some.inj h)
      simp
    · split at h
      · have := ih h
        simp only [List.length_cons]
        omega
      · simp at h

/-- The character of a code point, if it is one. -/
def character? (n : Nat) : Option Char := if n.isValidChar then some (Char.ofNat n) else none

/-- Puts the characters of the distances that are left into a label. The next one is counted from
character `last` at place `place`. -/
def insertAll? (label : Text) (bias last place : Nat) (t : Text) : Option Text :=
  if t = [] then some label
  else
    match _h : distance? bias 36 1 place t with
    | none => none
    | some (total, rest) =>
      let size := label.length + 1
      let last := last + total / size
      match character? last with
      | none => none
      | some c =>
        insertAll? (label.insertIdx (total % size) c) (adapt (total - place) size (place == 0)) last
          (total % size + 1) rest
termination_by t.length
decreasing_by exact length_lt_of_distance? _h

/-- What stands before and behind the last hyphen. A hyphen at the very front belongs to what is
behind. -/
def cutAtLastHyphen (code : Text) : Text × Text :=
  match (pieces '-' code).reverse with
  | last :: first :: others =>
    let before := joined '-' (first :: others).reverse
    if before = [] then ([], code) else (before, last)
  | _ => ([], code)

/-- The label that a code stands for, if it is one. -/
def decode? (code : Text) : Option Text :=
  let (ascii, distances) := cutAtLastHyphen code
  if ascii.all (·.toNat < 0x80) then insertAll? ascii 72 0x80 0 distances else none

end Punycode

end WorkspaceEditing
