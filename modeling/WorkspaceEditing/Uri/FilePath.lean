import WorkspaceEditing.Uri.Host
import WorkspaceEditing.Uri.Reference

/-!
# URIs and file paths

How the URL library reads a file path out of a URI, and how it writes one. A URI leads to a path
if it has a hierarchical path and its host is absent or `localhost`; which scheme it has decides
only how the host is read. Dot segments are resolved, query and fragment are dropped, and escapes
are decoded to bytes. A path is written component by component, with an escape for every byte that
the library does not leave alone in a path.

The library keeps to the URL standard for most of this, but not for drive letters: no dot segment
takes one back, whatever the scheme is and however deep the drive letter stands, and one at the
front of the path of a `file` URI takes the host away. Which path a URI leads to, the standard does
not say.

## Main definitions

* `Uri.resolveSegments` — a path with its dot segments resolved.
* `Uri.toPath?` — the file path that a URI leads to.
* `Uri.ofPath?` — the `file` URI of an absolute path.
-/

namespace WorkspaceEditing

namespace Uri

/-! ## Schemes and hosts -/

/-- How the URL library reads what follows a scheme. -/
inductive SchemeKind where
  /-- The scheme `file`: a host, then a path. -/
  | file
  /-- A scheme of the web: an authority that must name a host, behind any number of slashes. -/
  | web
  /-- Any other scheme: an authority only behind `//`, and a host of any form. -/
  | other
  deriving DecidableEq, Repr

/-- The kind of a scheme; letter case does not matter. -/
def schemeKind (scheme : Text) : SchemeKind :=
  let name := String.ofList (scheme.map Char.toLower)
  if name = "file" then .file
  else if ["http", "https", "ws", "wss", "ftp"].contains name then .web
  else .other

/-- The digits behind the colon of a host, which may be missing, for a number below `2¹⁶`. -/
def isHostNumber (t : Text) : Bool :=
  t.all Char.isDigit && t.foldl (fun n c => 10 * n + (c.toNat - '0'.toNat)) 0 < 0x10000

/-- An authority: what stands before its last `@`, its host, and what stands behind the colon of
the host. -/
def cutUserAndNumber (authority : Text) : Option Text × Text × Option Text :=
  let parts := pieces '@' authority
  let user := if parts.length = 1 then none else some (joined '@' parts.dropLast)
  match parts.getLastD [] with
  | '[' :: rest =>
    let (address, after) := cutAt ']' rest
    let number := match after with
      | some (':' :: number) => some number
      | _ => none
    (user, '[' :: address ++ [']'], number)
  | hostAndNumber =>
    let (host, number) := cutAt ':' hostAndNumber
    (user, host, number)

/-! ## Paths -/

/-- A letter and a colon or a bar. -/
def isDriveLetter : Text → Bool
  | [letter, mark] => letter.isAlpha && (mark == ':' || mark == '|')
  | _ => false

/-- A segment that stands for its own directory, its dot escaped or not. -/
def isSingleDot (segment : Text) : Bool :=
  [".", "%2e"].contains (String.ofList (segment.map Char.toLower))

/-- A segment that stands for the directory above, its dots escaped or not. -/
def isDoubleDot (segment : Text) : Bool :=
  ["..", ".%2e", "%2e.", "%2e%2e"].contains (String.ofList (segment.map Char.toLower))

/-- Takes back the last segment, given the segments in reverse. A drive letter stays, in any scheme
and behind any number of segments. -/
def shorten : List Text → List Text
  | [] => []
  | last :: before => if isDriveLetter last then last :: before else before

/-- Adds a segment to those before it, given in reverse. -/
def addSegment (before : List Text) (segment : Text) : List Text :=
  if isDoubleDot segment then shorten before
  else if isSingleDot segment then before
  else segment :: before

/-- The segments of a path with dot segments resolved. A dot segment at the end leaves the path of
a directory, which ends in an empty segment. -/
def resolveSegments (segments : List Text) : List Text :=
  let resolved := segments.foldl addSegment []
  let last := segments.getLastD []
  (if isDoubleDot last || isSingleDot last then [] :: resolved else resolved).reverse

/-- The segments of a path behind its leading slash. -/
def segmentsOf (path : Text) : List Text := pieces '/' (path.drop 1)

/-- A path with its dot segments resolved. -/
def resolve (path : Text) : Text := '/' :: joined '/' (resolveSegments (segmentsOf path))

/-- A resolved path of the scheme `file`, which begins with one slash only. -/
def resolveFile (path : Text) : Text := '/' :: (resolve path).dropWhile (· == '/')

/-- Whether a path, once its dot segments are resolved, begins with a drive letter. -/
def hasDriveLetter (path : Text) : Bool :=
  (resolveSegments (segmentsOf path)).head?.any isDriveLetter

/-- The path of a URI of the scheme `file`. A drive letter in place of a host begins the path, and
one at the front of the path takes the host away, where the URL standard would keep it. -/
def filePath? (authority : Option Text) (path : Text) : Option Text :=
  match authority with
  | none => some (resolveFile (if path.head? = some '/' then path else '/' :: path))
  | some host =>
    if isDriveLetter host then some (resolveFile ('/' :: host ++ path))
    else if host = [] then some (resolveFile path)
    else do
      let address ← Address.ofHost? host
      if address = .localhost ∨ hasDriveLetter path then some (resolveFile path) else none

/-- The path of a URI of the web. -/
def webPath? (authority : Option Text) (path : Text) : Option Text := do
  let rest := (authority.getD [] ++ path).dropWhile (· == '/')
  let (_, host, number) := cutUserAndNumber (rest.takeWhile (· ≠ '/'))
  if Address.ofHost? host = some .localhost ∧ isHostNumber (number.getD []) then
    some (resolve (rest.dropWhile (· ≠ '/')))
  else none

/-- The path of a URI of another scheme. Its host may be empty behind user information that is
empty on both sides of its colon. -/
def otherPath? (authority : Option Text) (path : Text) : Option Text := do
  let isLocal : Bool := match authority.map cutUserAndNumber with
    | none => true
    | some (user, host, number) =>
      if host = [] then (user.isNone || user == some [':']) && number.isNone
      else host == "localhost".toList && isHostNumber (number.getD [])
  if isLocal ∧ path.head? = some '/' then some (resolve path) else none

/-- A path that ends in a drive letter is that of the drive's root directory. -/
def closeDrive (path : List UInt8) : List UInt8 :=
  match path.reverse with
  | mark :: letter :: _ :: _ =>
    if (mark == 0x3A || mark == 0x7C) && (Char.ofNat letter.toNat).isAlpha then path ++ [0x2F]
    else path
  | _ => path

/-- The file path that a URI leads to, if it has a scheme and leads to one. -/
def toPath? (u : Uri) : Option Path := do
  let r := u.reference
  let scheme ← r.scheme
  let path ← match schemeKind scheme with
    | .file => filePath? r.authority r.path
    | .web => webPath? r.authority r.path
    | .other => otherPath? r.authority r.path
  pure ⟨closeDrive (Percent.decode path)⟩

/-! ## Writing a path -/

/-- The bytes that are escaped in a segment of a path: controls, all beyond ASCII, and those that
the URL library lists, with the slash, the backslash and the percent sign. -/
def isEscapedInSegment (b : UInt8) : Bool :=
  b < 0x20 || 0x7F ≤ b || (" \"#<>?`\x7b\x7d/%\\".toUTF8.toList).contains b

/-- The `file` URI of an absolute path. A path with a byte that the URL library leaves alone in a
path, and that no URI may hold, has none. -/
def ofPath? (p : Path) : Option Uri :=
  if p.isAbsolute then
    ofText? ("file:///".toList ++ joined '/' (p.names.map (Percent.encode isEscapedInSegment)))
  else none

end Uri

end WorkspaceEditing
