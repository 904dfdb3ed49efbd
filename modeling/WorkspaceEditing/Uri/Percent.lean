import WorkspaceEditing.Path

/-!
# Percent-encoding

A byte that may not stand in a URI is written as `%` and two hexadecimal digits.

## Main definitions

* `Percent.encode` — bytes as text, with all bytes of a class escaped.
* `Percent.decode` — the bytes of a text with escapes.
-/

namespace WorkspaceEditing

namespace Percent

/-- The value of a hexadecimal digit in either case. -/
def digitValue? (c : Char) : Option Nat :=
  if '0' ≤ c ∧ c ≤ '9' then some (c.toNat - '0'.toNat)
  else if 'a' ≤ c ∧ c ≤ 'f' then some (c.toNat - 'a'.toNat + 10)
  else if 'A' ≤ c ∧ c ≤ 'F' then some (c.toNat - 'A'.toNat + 10)
  else none

/-- A hexadecimal digit. -/
def isHexDigit (c : Char) : Bool := (digitValue? c).isSome

/-- The upper-case hexadecimal digit of a value below sixteen. -/
def digit (n : Nat) : Char :=
  if n < 10 then Char.ofNat ('0'.toNat + n) else Char.ofNat ('A'.toNat + (n - 10))

/-- A byte as an escape. -/
def escape (b : UInt8) : Text := ['%', digit (b.toNat / 16), digit (b.toNat % 16)]

/-- Bytes as text: those that `escaped` holds of as escapes, the others as the ASCII characters
that they are. -/
def encode (escaped : UInt8 → Bool) : List UInt8 → Text
  | [] => []
  | b :: rest =>
    (if escaped b then escape b else [Char.ofNat b.toNat]) ++ encode escaped rest

/-- The bytes of a text: an escape is its byte, every other character its UTF-8 bytes. -/
def decode : Text → List UInt8
  | [] => []
  | '%' :: high :: low :: rest =>
    match digitValue? high, digitValue? low with
    | some h, some l => UInt8.ofNat (h * 16 + l) :: decode rest
    | _, _ => String.utf8EncodeChar '%' ++ decode (high :: low :: rest)
  | c :: rest => String.utf8EncodeChar c ++ decode rest

end Percent

end WorkspaceEditing
