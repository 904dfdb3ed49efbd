import Mathlib.Tactic.SplitIfs
import WorkspaceEditing.Proofs.Path.Names

/-!
# Names as segments of a URI

A name is written into a URI with escapes for every byte that could be taken for a delimiter, and
decoding takes the escapes back. A dot segment decodes to the name that it stands for, so no other
name is taken for one, and segments without dot segments are resolved to themselves.

## Main definitions

* `Uri.segment` — the segment that a name is written as.
* `Uri.isBarred` — bytes that are written as they are, although no URI may hold them.

## Main results

* `Percent.decode_encode_append` — decoding takes back what encoding does.
* `Uri.decode_of_isSingleDot`, `Uri.decode_of_isDoubleDot` — what dot segments decode to.
* `Uri.resolveSegments_eq` — segments that are no dot segments stay as they are.
-/

namespace WorkspaceEditing

/-! ## Escapes -/

namespace Percent

theorem digitValue?_digit {n : Nat} (h : n < 16) : digitValue? (digit n) = some n := by
  have hall : ∀ n < 16, digitValue? (digit n) = some n := by decide
  exact hall n h

theorem decode_escape (b : UInt8) (rest : Text) : decode (escape b ++ rest) = b :: decode rest := by
  have hb := b.toNat_lt
  have hhigh := digitValue?_digit (n := b.toNat / 16) (by omega)
  have hlow := digitValue?_digit (n := b.toNat % 16) (by omega)
  have hvalue : b.toNat / 16 * 16 + b.toNat % 16 = b.toNat := by omega
  simp only [escape, List.cons_append, List.nil_append, decode, hhigh, hlow, hvalue,
    UInt8.ofNat_toNat]

/-- An ASCII character other than the percent sign is its own byte. -/
theorem decode_cons_of_ascii {b : UInt8} (hascii : b < 0x80) (hb : b ≠ 0x25) (rest : Text) :
    decode (Char.ofNat b.toNat :: rest) = b :: decode rest := by
  have hall : ∀ n < 128, String.utf8EncodeChar (Char.ofNat n) = [UInt8.ofNat n] ∧
      (Char.ofNat n = '%' → n = 0x25) := by decide +kernel
  obtain ⟨hbytes, hpercent⟩ := hall b.toNat (UInt8.lt_iff_toNat_lt.1 hascii)
  have hne : Char.ofNat b.toNat ≠ '%' := fun h => hb (UInt8.toNat_inj.1 (hpercent h))
  rw [decode.eq_3 _ _ fun _ _ _ h => absurd h hne, hbytes, UInt8.ofNat_toNat]
  rfl

/-- Decoding takes back what encoding does, if percent signs and all bytes beyond ASCII are
escaped. -/
theorem decode_encode_append {escaped : UInt8 → Bool} (hpercent : escaped 0x25 = true)
    (hascii : ∀ b, escaped b = false → b < 0x80) (bytes : List UInt8) (rest : Text) :
    decode (encode escaped bytes ++ rest) = bytes ++ decode rest := by
  induction bytes with
  | nil => rfl
  | cons b bytes ih =>
    rw [encode, List.append_assoc]
    split_ifs with hb
    · rw [decode_escape, ih, List.cons_append]
    · have hne : b ≠ 0x25 := by
        rintro rfl
        exact hb hpercent
      rw [List.singleton_append, decode_cons_of_ascii (hascii b (by simpa using hb)) hne, ih,
        List.cons_append]

end Percent

namespace Uri

/-! ## Segments -/

/-- The segment that a name is written as. -/
def segment (name : Name) : Text := Percent.encode isEscapedInSegment name

/-- Bytes that the URL library leaves alone in a path, and that no URI may hold: brackets, the
caret and the bar. -/
def isBarred (b : UInt8) : Bool := [0x5B, 0x5D, 0x5E, 0x7C].contains b

/-- A byte that is written as it is stands for an ASCII character that delimits nothing, and that is
one of a path unless it is barred. -/
theorem of_not_escaped {b : UInt8} (h : isEscapedInSegment b = false) :
    b < 0x80 ∧ Char.ofNat b.toNat ∉ ['/', '#', '?', '%'] ∧
      Reference.isPathChar (Char.ofNat b.toNat) = !isBarred b := by
  have hall : ∀ n < 256, isEscapedInSegment (UInt8.ofNat n) = false →
      n < 0x80 ∧ Char.ofNat n ∉ ['/', '#', '?', '%'] ∧
        Reference.isPathChar (Char.ofNat n) = !isBarred (UInt8.ofNat n) := by decide +kernel
  have hb := hall b.toNat b.toNat_lt
  rw [UInt8.ofNat_toNat] at hb
  obtain ⟨hascii, hdelimits, hpath⟩ := hb h
  exact ⟨UInt8.lt_iff_toNat_lt.2 hascii, hdelimits, hpath⟩

theorem isBarred_of_escaped {b : UInt8} (h : isEscapedInSegment b = true) : isBarred b = false := by
  have hall : ∀ n < 256, isEscapedInSegment (UInt8.ofNat n) = true →
      isBarred (UInt8.ofNat n) = false := by decide +kernel
  have hb := hall b.toNat b.toNat_lt
  rw [UInt8.ofNat_toNat] at hb
  exact hb h

theorem decode_segment_append (name : Name) (rest : Text) :
    Percent.decode (segment name ++ rest) = name ++ Percent.decode rest :=
  Percent.decode_encode_append (by decide +kernel) (fun _ h => (of_not_escaped h).1) name rest

theorem decode_segment (name : Name) : Percent.decode (segment name) = name := by
  have h := decode_segment_append name []
  rwa [List.append_nil, Percent.decode, List.append_nil] at h

/-- No delimiter gets into a segment. -/
theorem not_mem_segment {c : Char} (hc : c ∈ ['/', '#', '?']) (name : Name) : c ∉ segment name := by
  have hdigit : ∀ n < 16, Percent.digit n ∉ ['/', '#', '?'] := by decide +kernel
  induction name with
  | nil => exact List.not_mem_nil
  | cons b name ih =>
    have hfirst : c ∉ if isEscapedInSegment b then Percent.escape b else [Char.ofNat b.toNat] := by
      split_ifs with hb
      · have hlt := b.toNat_lt
        have hhigh := hdigit (b.toNat / 16) (by omega)
        have hlow := hdigit (b.toNat % 16) (by omega)
        have hpercent : '%' ∉ ['/', '#', '?'] := by decide
        rw [Percent.escape]
        grind
      · intro hmem
        rw [List.mem_singleton] at hmem
        have hdelimits := (of_not_escaped (by simpa using hb)).2.1
        rw [← hmem] at hdelimits
        exact hdelimits (List.mem_append_left ['%'] hc)
    intro hmem
    rcases List.mem_append.1 hmem with hmem | hmem
    · exact hfirst hmem
    · exact ih hmem

theorem segment_ne_nil {name : Name} (h : name ≠ []) : segment name ≠ [] := by
  intro hnil
  apply h
  rw [← decode_segment name, hnil, Percent.decode]

/-! ## Dot segments -/

theorem cases_of_toLower {c d : Char} (h : c.toLower = d) :
    c = d ∨ 65 ≤ c.toNat ∧ c.toNat ≤ 90 ∧ c.toNat + 32 = d.toNat := by
  subst h
  unfold Char.toLower
  split
  · rename_i hc
    obtain ⟨hlow, hhigh⟩ : 65 ≤ c.val.toNat ∧ c.val.toNat ≤ 90 := ⟨hc.1, hc.2⟩
    have hadd : (c.val + 32).toNat = c.val.toNat + 32 := by
      rw [UInt32.toNat_add]
      exact Nat.mod_eq_of_lt (by have : (32 : UInt32).toNat = 32 := rfl; omega)
    exact .inr ⟨hlow, hhigh, hadd.symm⟩
  · exact .inl rfl

/-- A dot, escaped or not. -/
def IsDot (s : Text) : Prop := s.map Char.toLower = ['.'] ∨ s.map Char.toLower = ['%', '2', 'e']

theorem decode_dot_append {s : Text} (h : IsDot s) (rest : Text) :
    Percent.decode (s ++ rest) = 0x2E :: Percent.decode rest := by
  have hsame {c d : Char} (hc : c.toLower = d) (hd : d.toNat < 97) : c = d := by
    rcases cases_of_toLower hc with heq | ⟨hlow, -, heq⟩
    · exact heq
    · omega
  rcases h with h | h
  · obtain ⟨c, s, rfl, hc, hs⟩ := List.map_eq_cons_iff.1 h
    obtain rfl := List.map_eq_nil_iff.1 hs
    obtain rfl := hsame hc (by decide)
    exact Percent.decode.eq_3 _ _ fun _ _ _ h => absurd h (by decide)
  · obtain ⟨c, s, rfl, hpercent, h⟩ := List.map_eq_cons_iff.1 h
    obtain ⟨high, s, rfl, hhigh, h⟩ := List.map_eq_cons_iff.1 h
    obtain ⟨low, s, rfl, hlow, h⟩ := List.map_eq_cons_iff.1 h
    obtain rfl := List.map_eq_nil_iff.1 h
    obtain rfl := hsame hpercent (by decide)
    obtain rfl := hsame hhigh (by decide)
    -- the last digit is a letter, of either case
    have hvalue : Percent.digitValue? low = some 14 := by
      rcases cases_of_toLower hlow with rfl | ⟨-, -, heq⟩
      · rfl
      · have hE : low = 'E' := Char.toNat_inj.1 (by simpa using heq)
        rw [hE]
        rfl
    have htwo : Percent.digitValue? '2' = some 2 := rfl
    show Percent.decode ('%' :: '2' :: low :: rest) = _
    simp only [Percent.decode, hvalue, htwo]
    rfl

/-- A segment that stands for its own directory spells the name of it, escaped or not, -/
theorem decode_of_isSingleDot {s : Text} (h : isSingleDot s = true) :
    Percent.decode s = Path.here := by
  have hdot : IsDot s := by simpa [isSingleDot, IsDot, String.ext_iff] using h
  have hdecode := decode_dot_append hdot []
  rwa [List.append_nil] at hdecode

/-- and so does one that stands for the directory above. -/
theorem decode_of_isDoubleDot {s : Text} (h : isDoubleDot s = true) :
    Percent.decode s = Path.above := by
  have hmap : s.map Char.toLower = ['.'] ++ ['.'] ∨ s.map Char.toLower = ['.'] ++ ['%', '2', 'e'] ∨
      s.map Char.toLower = ['%', '2', 'e'] ++ ['.'] ∨
      s.map Char.toLower = ['%', '2', 'e'] ++ ['%', '2', 'e'] := by
    simpa [isDoubleDot, String.ext_iff] using h
  obtain ⟨s, s', rfl, hs, hs'⟩ : ∃ s₁ s₂, s = s₁ ++ s₂ ∧ IsDot s₁ ∧ IsDot s₂ := by
    simp only [List.map_eq_append_iff] at hmap
    unfold IsDot
    grind
  rw [decode_dot_append hs, ← List.append_nil s', decode_dot_append hs']
  rfl

/-- Segments that are no dot segments stay as they are. -/
theorem resolveSegments_eq {segments : List Text}
    (h : ∀ s ∈ segments, isDoubleDot s = false ∧ isSingleDot s = false) :
    resolveSegments segments = segments := by
  have hadd (before : List Text) :
      segments.foldl addSegment before = segments.reverse ++ before := by
    induction segments generalizing before with
    | nil => rfl
    | cons s rest ih =>
      obtain ⟨hdouble, hsingle⟩ := h s List.mem_cons_self
      rw [List.foldl_cons, addSegment, hdouble, hsingle,
        ih fun s hs => h s (List.mem_cons_of_mem _ hs)]
      simp
  have hlast : isDoubleDot (segments.getLastD []) = false ∧
      isSingleDot (segments.getLastD []) = false := by
    cases hsegments : segments.getLast? with
    | none =>
      rw [List.getLast?_eq_none_iff] at hsegments
      subst hsegments
      exact ⟨by decide, by decide⟩
    | some s =>
      rw [List.getLastD_eq_getLast?, hsegments]
      exact h s (List.mem_of_getLast? hsegments)
  rw [resolveSegments, hadd, hlast.1, hlast.2]
  simp

/-! ## What decoding makes of slashes -/

theorem decode_slash (rest : Text) :
    Percent.decode ('/' :: rest) = Path.slash :: Percent.decode rest :=
  Percent.decode_cons_of_ascii (b := Path.slash) (by decide) (by decide) rest

/-- A drive letter at the end gets a slash, which adds no name. -/
theorem names_closeDrive (bytes : List UInt8) :
    Path.names ⟨closeDrive bytes⟩ = Path.names ⟨bytes⟩ := by
  have hslash : Path.names ⟨bytes ++ [Path.slash]⟩ = Path.names ⟨bytes⟩ := by
    have happend := Path.names_append_slash bytes []
    rw [happend, Path.names_eq ⟨[]⟩]
    simp [Path.isTrivial]
  unfold closeDrive
  split
  · split_ifs
    · exact hslash
    · rfl
  · rfl

end Uri

end WorkspaceEditing
