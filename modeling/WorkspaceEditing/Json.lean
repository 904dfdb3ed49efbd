/-!
# JSON values

Edits, actions and the arguments of commands arrive as JSON. An integer is kept apart from a number
written with a fraction, because counts and flags are read from integers only.

## Main definitions

* `Json` — a JSON value.
* `Json.field?` — the value of a field of an object.
* `Json.record?` — the fields of a record, written as an object or as an array in field order.
-/

namespace WorkspaceEditing

/-- A JSON value. `decimal m e` is the number `m · 10⁻ᵉ`. -/
inductive Json where
  | null
  | bool (value : Bool)
  | integer (value : Int)
  | decimal (mantissa : Int) (exponent : Nat)
  | string (value : String)
  | array (items : List Json)
  | object (fields : List (String × Json))
  deriving Inhabited, BEq, Repr

namespace Json

/-- The value of a field, if the object has it. -/
def field? (fields : List (String × Json)) (name : String) : Option Json :=
  (fields.find? fun field => field.1 == name).map (·.2)

/-- The value of each field of a record. A record is written as an object, where a field may be
absent and others may be present, or as an array, where every field stands in its place. -/
def record? (names : List String) : Json → Option (List (Option Json))
  | object fields => some (names.map (field? fields))
  | array items => if items.length = names.length then some (items.map some) else none
  | _ => none

/-- A string. -/
def string? : Json → Option String
  | string s => some s
  | _ => none

/-- A truth value. -/
def bool? : Json → Option Bool
  | bool b => some b
  | _ => none

/-- An integer from `0` up to, but not including, `2³²`. -/
def unsigned32? : Json → Option Nat
  | integer n => if 0 ≤ n ∧ n < 0x100000000 then some n.toNat else none
  | _ => none

/-- An integer from `-2³¹` up to, but not including, `2³¹`. -/
def signed32? : Json → Option Int
  | integer n => if -0x80000000 ≤ n ∧ n < 0x80000000 then some n else none
  | _ => none

/-- An array whose items can all be read by `read`. -/
def list? {α : Type} (read : Json → Option α) : Json → Option (List α)
  | array items => items.mapM read
  | _ => none

/-- A field that has to be there. -/
def required? {α : Type} (read : Json → Option α) : Option Json → Option α
  | some value => read value
  | none => none

/-- A field that may be absent or `null`, and otherwise has to be read by `read`. -/
def optional? {α : Type} (read : Json → Option α) : Option Json → Option (Option α)
  | none => some none
  | some null => some none
  | some value => (read value).map some

end Json

end WorkspaceEditing
