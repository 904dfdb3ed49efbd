import WorkspaceEditing.Path

/-!
# File trees

A file tree is kept flat: every file, directory and symbolic link stands under its key, the names
that lead to it from the root. The root itself is always a directory. To move a subtree is to
exchange the beginning of its keys.

An entry stands under one key only: there are no hard links, and a file is what stands at its key.
Nor are there permissions or limits of space. Whether an operation succeeds depends on its paths and
on the entries alone.

## Main definitions

* `Disk` — a file tree.
* `Disk.get?` — what stands at a key.
* `Disk.set`, `Disk.remove`, `Disk.removeBeneath`, `Disk.move` — the changes of a tree.
* `Disk.listing` — the entries beneath a key, in the order of a walk through the tree.
-/

namespace WorkspaceEditing

/-- The names that lead from the root to an entry. -/
abbrev Key := List Name

/-- Contents are compared byte by byte, whatever other instances are in scope. -/
local instance instDecidableEqContents : DecidableEq ByteArray := ByteArray.instDecidableEq

/-- What stands at a key. -/
inductive Entry where
  | file (contents : ByteArray)
  | dir
  | link (target : List UInt8)
  deriving DecidableEq

/-- A file tree: its entries, each under its key. -/
structure Disk where
  entries : List (Key × Entry)
  deriving DecidableEq

namespace Disk

/-- A tree that holds the root only. -/
def empty : Disk := ⟨[]⟩

/-- What stands at a key. -/
def get? (d : Disk) (key : Key) : Option Entry :=
  if key = [] then some .dir else (d.entries.find? fun e => e.1 = key).map (·.2)

/-- The tree with an entry put at a key, in place of the one that may stand there. -/
def set (d : Disk) (key : Key) (entry : Entry) : Disk :=
  if d.entries.any fun e => e.1 = key then
    ⟨d.entries.map fun e => if e.1 = key then (key, entry) else e⟩
  else ⟨d.entries ++ [(key, entry)]⟩

/-- The tree without the entry at a key. -/
def remove (d : Disk) (key : Key) : Disk := ⟨d.entries.filter fun e => e.1 ≠ key⟩

/-- Whether one key leads to a place strictly beneath another. -/
def isBeneath (key base : Key) : Bool := base.isPrefixOf key && key ≠ base

/-- Whether an entry stands strictly beneath a key. -/
def hasBeneath (d : Disk) (base : Key) : Bool := d.entries.any fun e => isBeneath e.1 base

/-- The tree without the entries strictly beneath a key. -/
def removeBeneath (d : Disk) (base : Key) : Disk :=
  ⟨d.entries.filter fun e => !isBeneath e.1 base⟩

/-- The key with the beginning `source` exchanged for `target`, if it begins so. -/
def rebase (source target key : Key) : Key :=
  if source.isPrefixOf key then target ++ key.drop source.length else key

/-- The tree with the entry at `source`, and all beneath it, at `target` instead. What stood at
`target` gives way. -/
def move (d : Disk) (source target : Key) : Disk :=
  ⟨(d.remove target).entries.map fun e => (rebase source target e.1, e.2)⟩

/-- The entries strictly beneath a key with the rest of their keys: names in the order of their
bytes, and a directory before what it holds. -/
def listing (d : Disk) (base : Key) : List (Key × Entry) :=
  let beneath := d.entries.filter fun e => isBeneath e.1 base
  (beneath.map fun e => (e.1.drop base.length, e.2)).mergeSort fun a b => !decide (b.1 < a.1)

/-! ## Reading after a change -/

@[simp] theorem get?_nil (d : Disk) : d.get? [] = some .dir := by simp [get?]

theorem get?_remove {d : Disk} {key other : Key} (h : other ≠ []) :
    (d.remove key).get? other = if other = key then none else d.get? other := by
  simp only [get?, remove, h, if_false, List.find?_filter]
  split
  · rename_i hk
    subst hk
    simp
  · rename_i hk
    congr 2
    funext e
    by_cases he : e.1 = other <;> simp [he, hk]

end Disk

end WorkspaceEditing
