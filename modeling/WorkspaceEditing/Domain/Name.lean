import WorkspaceEditing.Domain.Label

/-!
# Domain names

A domain name is read by what its characters stand for, in normal form and label by label.

## Main definitions

* `Domain.Name` — the labels of a name.
* `Domain.name?` — the name that a text stands for.
-/

namespace WorkspaceEditing

namespace Domain

/-- The labels of a domain name. One may be empty, as behind a dot at the end. -/
abbrev Name := List Text

/-- The characters of ASCII that no domain name holds: controls, and those that delimit the parts of
a URL. -/
def isDelimiter (c : Char) : Bool :=
  c.toNat ≤ 0x20 || c.toNat == 0x7F || " #%/:<>?@[\\]^|".toList.contains c

/-- The labels that the parts of a name stand for. -/
def labels? : List Text → Option Name
  | [] => some []
  | part :: rest => do pure ((← label? part) :: (← labels? rest))

/-- The domain name that a text stands for, if it is one and not empty. -/
def name? (t : Text) : Option Name := do
  let normal := normalForm (← meaningOfText? t)
  if normal = [] ∨ normal.any isDelimiter then none
  else
    let name ← labels? (pieces '.' normal)
    if name.any hasRightToLeft ∧ ¬ name.all isOfOneDirection then none else some name

end Domain

end WorkspaceEditing
