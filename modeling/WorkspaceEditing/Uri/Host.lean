import WorkspaceEditing.Domain.Name
import WorkspaceEditing.Uri.Percent

/-!
# Hosts

How the URL library reads a host: an address in brackets stands for itself, and anything else is a
domain name once its escapes are decoded. A name whose last label is a number must be an address
of four bytes, which may be written as one to four numbers.

## Main definitions

* `Uri.Address` — what a host stands for.
* `Uri.Address.ofHost?` — how a host is read.
* `Uri.Address.localhost` — the machine itself.
-/

namespace WorkspaceEditing

namespace Uri

/-- What a host stands for. -/
inductive Address where
  /-- An address in brackets. -/
  | bracketed (text : Text)
  /-- An address of four bytes, as a number. -/
  | number (value : Nat)
  | domain (name : Domain.Name)
  deriving DecidableEq, Repr

/-! ## Addresses of four bytes -/

/-- The number that digits of a base stand for, if all are below the base. -/
def ofDigits? (base : Nat) : Text → Option Nat :=
  List.foldlM (fun n c => do
    let digit ← Percent.digitValue? c
    if digit < base then some (base * n + digit) else none) 0

/-- A number in base ten, behind `0` in base eight, or behind `0x` in base sixteen. The digits
behind `0x` may be missing. -/
def number? : Text → Option Nat
  | [] => none
  | ['0'] => some 0
  | '0' :: 'x' :: digits => ofDigits? 16 digits
  | '0' :: digits => ofDigits? 8 digits
  | digits => ofDigits? 10 digits

/-- The labels of a name without an empty one at the end. -/
def withoutRoot (name : Domain.Name) : Domain.Name :=
  if name.getLast? = some [] then name.dropLast else name

/-- Whether the last label is a number, or looks like one in base ten. -/
def endsInNumber (name : Domain.Name) : Bool :=
  match (withoutRoot name).getLast? with
  | none => false
  | some last => (last ≠ [] && last.all Char.isDigit) || (number? last).isSome

/-- The address that numbers stand for: each but the last is a byte, and the last has the room that
is left of four. -/
def address? : Nat → List Nat → Option Nat
  | _, [] => none
  | room, [last] => if last < 256 ^ room then some last else none
  | room, n :: rest => do
    if 1 < room ∧ n < 256 then
      pure (n * 256 ^ (room - 1) + (← address? (room - 1) rest))
    else none

/-- The numbers that labels are. -/
def numbers? : List Text → Option (List Nat)
  | [] => some []
  | label :: rest => do pure ((← number? label) :: (← numbers? rest))

/-! ## Hosts -/

namespace Address

/-- What a host stands for, if it is one. -/
def ofHost? (host : Text) : Option Address :=
  if host.head? = some '[' then
    if host.getLast? = some ']' then some (.bracketed host) else none
  else do
    let name ← Domain.name? (← Text.ofBytes? ⟨(Percent.decode host).toArray⟩)
    if endsInNumber name then
      pure (.number (← address? 4 (← numbers? (withoutRoot name))))
    else pure (.domain name)

/-- The machine itself. -/
def localhost : Address := .domain ["localhost".toList]

end Address

end Uri

end WorkspaceEditing
