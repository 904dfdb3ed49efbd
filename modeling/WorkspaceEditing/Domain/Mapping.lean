import WorkspaceEditing.Domain.Mapping.Disallowed
import WorkspaceEditing.Domain.Mapping.Letter
import WorkspaceEditing.Domain.Mapping.Sequence

/-!
# What characters stand for in domain names

Domain names do not tell capital from small letters, nor a character from its variants. A character
stands for itself, for other characters or for nothing, or it has no meaning in a domain name.

## Main definitions

* `Domain.meaning?` — what a character stands for.
* `Domain.standsForItself` — the characters that a name is left with.
-/

namespace WorkspaceEditing

namespace Domain

/-- The characters that stand for nothing: joiners of words, fillers and selectors of variants. -/
def ignored : Unicode.CharSet := .ofRows [
  "ad 34f 115f-1160 17b4-17b5 180b-180f 200b 2060-2064 206a-206f 3164 fe00-fe0f feff ffa0",
  "1bca0-1bca3 1d173-1d17a e0100-e01ef"]

/-- What a character stands for in a domain name, or none if it has no meaning there. In ASCII,
capital letters stand for small ones. -/
def meaning? (c : Char) : Option Text :=
  if c.toNat < 0x80 then some [c.toLower]
  else if ignored.contains c then some []
  else if disallowed.contains c then none
  else match letterRules.findSome? (·.image? c) with
    | some target => some [target]
    | none => ((sequences.find? fun entry => entry.1 = [c]).map (·.2)).or (some [c])

/-- Whether a character stands for itself. -/
def standsForItself (c : Char) : Bool := meaning? c == some [c]

/-- What a text stands for, if every character of it has a meaning. -/
def meaningOfText? : Text → Option Text
  | [] => some []
  | c :: rest => do pure ((← meaning? c) ++ (← meaningOfText? rest))

end Domain

end WorkspaceEditing
