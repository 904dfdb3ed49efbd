import WorkspaceEditing.Uri.Percent

/-!
# URI references

The syntax of RFC 3986. A reference is cut into scheme, authority, path, query and fragment by the
first `#`, the first `?`, the first `:` before any slash, and a leading `//`; it is well formed if
each part is of its own alphabet. The address in brackets of a future IP version is not accepted.

## Main definitions

* `Reference` — the five parts of a reference.
* `Uri` — a text that is a well-formed reference.
-/

namespace WorkspaceEditing

/-- The parts of a URI reference. Those that are absent are told apart from empty ones. -/
structure Reference where
  scheme : Option Text
  authority : Option Text
  path : Text
  query : Option Text
  fragment : Option Text
  deriving DecidableEq, Repr

/-- The text before the first occurrence of a character, and the text after it if there is one. -/
def cutAt (c : Char) : Text → Text × Option Text
  | [] => ([], none)
  | first :: rest =>
    if first = c then ([], some rest)
    else let (before, after) := cutAt c rest; (first :: before, after)

namespace Reference

/-! ## Alphabets -/

/-- Characters that never need an escape. -/
def isUnreserved (c : Char) : Bool := c.isAlphanum || ['-', '.', '_', '~'].contains c

/-- Delimiters that a scheme may give a meaning of its own. -/
def isSubDelimiter (c : Char) : Bool :=
  ['!', '$', '&', '\x27', '(', ')', '*', '+', ',', ';', '='].contains c

/-- Characters of a registered host name. -/
def isNameChar (c : Char) : Bool := isUnreserved c || isSubDelimiter c

/-- Characters of the user information of an authority. -/
def isUserChar (c : Char) : Bool := isNameChar c || c == ':'

/-- Characters of a path, the slash among them. -/
def isPathChar (c : Char) : Bool := isUserChar c || c == '@' || c == '/'

/-- Characters of a query or a fragment. -/
def isQueryChar (c : Char) : Bool := isPathChar c || c == '?'

/-- Whether a text consists of characters of an alphabet and escapes. -/
def consistsOf (alphabet : Char → Bool) : Text → Bool
  | [] => true
  | '%' :: high :: low :: rest =>
    Percent.isHexDigit high && Percent.isHexDigit low && consistsOf alphabet rest
  | c :: rest => alphabet c && consistsOf alphabet rest

/-! ## Parts -/

/-- A letter, and then letters, digits, `+`, `-` and `.`. -/
def isScheme : Text → Bool
  | [] => false
  | c :: rest => c.isAlpha && rest.all fun c => c.isAlphanum || ['+', '-', '.'].contains c

/-- A number from 0 to 255, without leading zeros. -/
def isByteNumber (t : Text) : Bool :=
  t.all Char.isDigit && (t.length == 1 || (t.head? != some '0' && (t.length == 2 ||
    (t.length == 3 && t.foldl (fun n c => 10 * n + (c.toNat - '0'.toNat)) 0 ≤ 255))))

/-- Four numbers between dots. -/
def isDottedAddress (t : Text) : Bool :=
  let parts := pieces '.' t
  parts.length == 4 && parts.all isByteNumber

/-- Up to four hexadecimal digits. -/
def isGroup (t : Text) : Bool := 1 ≤ t.length && t.length ≤ 4 && t.all Percent.isHexDigit

/-- The number of 16-bit groups that parts between colons stand for, or none if one is no group.
Only where `dotted` is set may the last be a dotted address, which stands for two. -/
def groupCount? (dotted : Bool) : List Text → Option Nat
  | [] => some 0
  | part :: rest =>
    if isGroup part then (groupCount? dotted rest).map (· + 1)
    else if dotted ∧ rest = [] ∧ isDottedAddress part then some 2
    else none

/-- The text before the first `::`, and the text after it if there is one. -/
def cutAtGap : Text → Text × Option Text
  | [] => ([], none)
  | ':' :: ':' :: rest => ([], some rest)
  | c :: rest => let (before, after) := cutAtGap rest; (c :: before, after)

/-- The parts of a text between colons; none of the empty text. -/
def colonParts (t : Text) : List Text := if t = [] then [] else pieces ':' t

/-- An IPv6 address: eight groups, or fewer with one `::` for those left out. -/
def isAddress6 (t : Text) : Bool :=
  match cutAtGap t with
  | (all, none) => groupCount? true (colonParts all) == some 8
  | (before, some after) =>
    match groupCount? false (colonParts before), groupCount? true (colonParts after) with
    | some m, some n => m + n ≤ 7
    | _, _ => false

/-- A host, an address in brackets or a name, and digits behind a colon. -/
def isHostAndNumber : Text → Bool
  | '[' :: rest =>
    let (address, after) := cutAt ']' rest
    isAddress6 address &&
      match after with
      | none => false
      | some [] => true
      | some (c :: number) => c == ':' && number.all Char.isDigit
  | t =>
    let (host, number) := cutAt ':' t
    consistsOf isNameChar host && (number.getD []).all Char.isDigit

/-- Optional user information before an `@`, a host, and an optional number behind a colon. -/
def isAuthority (t : Text) : Bool :=
  match cutAt '@' t with
  | (hostAndNumber, none) => isHostAndNumber hostAndNumber
  | (user, some hostAndNumber) => consistsOf isUserChar user && isHostAndNumber hostAndNumber

/-! ## References -/

/-- The scheme before the first colon, unless a slash comes first, and the rest. -/
def cutScheme (t : Text) : Option Text × Text :=
  match cutAt ':' t with
  | (_, none) => (none, t)
  | (before, some after) => if before.contains '/' then (none, t) else (some before, after)

/-- The authority behind a leading `//`, and the path. -/
def cutAuthority : Text → Option Text × Text
  | '/' :: '/' :: rest => (some (rest.takeWhile (· ≠ '/')), rest.dropWhile (· ≠ '/'))
  | t => (none, t)

/-- The parts of a text. -/
def ofText (t : Text) : Reference :=
  let (beforeFragment, fragment) := cutAt '#' t
  let (beforeQuery, query) := cutAt '?' beforeFragment
  let (scheme, rest) := cutScheme beforeQuery
  let (authority, path) := cutAuthority rest
  ⟨scheme, authority, path, query, fragment⟩

/-- Whether every part is of its alphabet. -/
def wellFormed (r : Reference) : Bool :=
  r.scheme.all isScheme && r.authority.all isAuthority && consistsOf isPathChar r.path &&
    r.query.all (consistsOf isQueryChar) && r.fragment.all (consistsOf isQueryChar)

end Reference

/-- A URI reference: a text that is well formed by RFC 3986, and nothing else. -/
@[ext]
structure Uri where
  text : Text
  wellFormed : (Reference.ofText text).wellFormed = true
  deriving DecidableEq, Repr

namespace Uri

/-- The reference that a text is, if it is one. -/
def ofText? (t : Text) : Option Uri :=
  if h : (Reference.ofText t).wellFormed = true then some ⟨t, h⟩ else none

/-- The reference that a string is, if it is one. -/
def ofString? (s : String) : Option Uri := ofText? s.toList

/-- A reference as text for messages. -/
def toString (u : Uri) : String := String.ofList u.text

/-- The parts of a reference. -/
def reference (u : Uri) : Reference := Reference.ofText u.text

theorem ofText?_eq_some {t : Text} {u : Uri} : ofText? t = some u ↔ u.text = t := by
  unfold ofText?
  split
  · simp [Uri.ext_iff, eq_comm]
  · rename_i h
    simp only [reduceCtorEq, false_iff]
    rintro rfl
    exact h u.wellFormed

end Uri

end WorkspaceEditing
