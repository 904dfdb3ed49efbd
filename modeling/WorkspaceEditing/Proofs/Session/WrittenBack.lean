import WorkspaceEditing.Proofs.Disk.OneFile
import WorkspaceEditing.Proofs.Session.Rename

/-!
# Files that are written back

Reading a file takes the line feed at its end away, and writing a buffer puts one there, unless the
buffer is empty. So contents that are empty or end in a line feed are written back as they are, with
one exception: a single line feed is read as the empty text, and an empty text is written as an
empty file. A renaming writes the open buffers beneath the old path before it moves the files. A
file whose buffer has not been changed therefore comes to the new path as it was written back.

## Main definitions

* `Text.writtenBack` — what a file holds after its contents were read and written.
* `Buffer.Mirrors` — a buffer holds what was read from a file.
* `Editor.Unmodified` — an open buffer and its file are as they were when the file was read.

## Main results

* `Editor.exists_loadBuffer`, `Editor.exists_writeBuffer` — loading and writing.
* `Applier.RenameRun.exists_renamed` — what is left of a renamed file.
* `Applier.contents_writtenBack` — all of it, in every session.
-/

namespace WorkspaceEditing

open Protocol

/-- The text is empty or ends in a line feed. -/
def Text.IsTerminated (t : Text) : Prop := t = [] ∨ t.getLast? = some '\n'

instance (t : Text) : Decidable t.IsTerminated :=
  inferInstanceAs (Decidable (t = [] ∨ t.getLast? = some '\n'))

/-- What a file holds after its contents, which are empty or end in a line feed, were read and
written: an empty text is written without a line feed. -/
def Text.writtenBack (contents : Text) : Text := if contents = ['\n'] then [] else contents

/-- The buffer holds what was read from a file, and gets a line break at its end when it is
written. -/
structure Buffer.Mirrors (b : Buffer) (contents : Text) : Prop where
  text : b.text = Buffer.textOfContents contents
  fixesEndOfLine : b.fixesEndOfLine = true

instance (b : Buffer) (contents : Text) : Decidable (b.Mirrors contents) :=
  decidable_of_iff (b.text = Buffer.textOfContents contents ∧ b.fixesEndOfLine = true)
    ⟨fun h => ⟨h.1, h.2⟩, fun h => ⟨h.text, h.fixesEndOfLine⟩⟩

/-- The line feed that was taken away is put back, unless nothing is left. -/
theorem Buffer.Mirrors.contents_eq {b : Buffer} {contents : Text} (h : b.Mirrors contents)
    (hend : contents.IsTerminated) : b.contents = contents.writtenBack := by
  rcases hend with rfl | hend
  · have htext : b.text = [] := h.text
    simp [Buffer.contents, htext, Text.writtenBack]
  · obtain ⟨body, rfl⟩ := List.getLast?_eq_some_iff.1 hend
    have htext : b.text = body := by simp [h.text, Buffer.textOfContents]
    by_cases hnil : body = []
    · simp [Buffer.contents, htext, hnil, Text.writtenBack]
    · simp [Buffer.contents, htext, hnil, h.fixesEndOfLine, Text.writtenBack]

/-! ## Loading and writing -/

namespace Editor

variable {w : World Editor} {id : BufferId} {path : Path} {contents : Text}

/-- The buffer of a path is open and holds what is read from its file. -/
structure Unmodified (id : BufferId) (path : Path) (contents : Text) (w : World Editor) :
    Prop where
  buffer : ∃ b, w.host.buffer? id = some b ∧ b.path = path ∧ b.Mirrors contents
  file : w.disk.readText? path = .ok contents

/-- A file that is not open is loaded as it is. -/
theorem exists_loadBuffer (hs : w.host.Sound) (hfind : w.host.findBuffer? path = none)
    (hread : w.disk.readText? path = .ok contents) :
    ∃ id w', loadBuffer path w = .ok id w' ∧ w'.disk = w.disk ∧ Unmodified id path contents w' := by
  have htext : readFile path w = .ok (Buffer.textOfContents contents) w := by
    simp only [readFile, hread]
  obtain ⟨id, host, hinsert⟩ :
      ∃ id host, w.host.insertBuffer path (Buffer.textOfContents contents) = (id, host) :=
    ⟨_, _, rfl⟩
  refine ⟨id, { w with host }, ?_, rfl,
    ⟨.new id path (Buffer.textOfContents contents), ?_, rfl, rfl, rfl⟩, hread⟩
  · rw [loadBuffer_of_fresh hfind, bind_of_ok htext]
    show EStateM.Result.ok _ _ = _
    rw [hinsert]
  · cases hinsert
    have hs' := hs.insertBuffer path (Buffer.textOfContents contents)
    exact buffer?_of_mem hs'.numbered (List.mem_append_right _ (List.mem_singleton_self _))

/-- A buffer that is not modified is written back to its file. -/
theorem exists_writeBuffer (hend : contents.IsTerminated)
    (h : Unmodified id path contents w) :
    ∃ w', writeBuffer id w = .ok () w' ∧ w'.host = w.host ∧
      w'.disk.readText? path = .ok contents.writtenBack ∧
      (contents ≠ ['\n'] → ∀ key, w'.disk.get? key = w.disk.get? key) := by
  obtain ⟨⟨b, hb, rfl, hmirrors⟩, hread⟩ := h
  obtain ⟨spot, key, hlocate, hspot, hget⟩ := Disk.exists_spot_of_readText? hread
  have hwrite := DiskAction.write_ok hlocate hspot (by simp [hget]) b.contents.toBytes
  have hlook : HostAction.look (·.buffer id) w = .ok b w :=
    HostAction.look_ok (by rw [buffer, hb])
  refine ⟨{ w with disk := w.disk.set key (.file b.contents.toBytes) }, ?_, rfl, ?_, ?_⟩
  · unfold writeBuffer
    rw [bind_of_ok hlook, HostAction.onDisk, hwrite]
  · rw [← hmirrors.contents_eq hend]
    exact DiskAction.readText?_of_write hwrite
  · intro hsingle other
    rw [Disk.get?_set hspot.ne_nil, hmirrors.contents_eq hend, Text.writtenBack, if_neg hsingle]
    split_ifs with hother
    · rw [hother, hget]
    · rfl

end Editor

/-! ## Renaming -/

namespace Applier

variable {config : Config} {encoding : Encoding} {change : RenameFile} {oldPath newPath : Path}
  {e : Editor} {d d₀ : Disk} {w w' : World Editor} {spot : Spot} {key : Key} {contents : Text}

/-- Buffers at a path that has led to a file, or beneath it, are all written at the path itself. If
all of them have the same contents, the file has these. -/
theorem file_of_writeBuffers {bs : List Buffer} (hlocate₀ : d₀.locate .never oldPath = .ok spot)
    (hspot : spot.IsFor key)
    (hbs : ∀ b ∈ bs, e.buffer? b.id = some b ∧ oldPath.names <+: b.path.names ∧
      (b.path.names = oldPath.names → b.contents = contents)) (hne : bs ≠ [])
    (hway : d.locate .never oldPath = .error .notFound ∨ d.locate .never oldPath = .ok spot)
    (hentry : d.get? key = none ∨ d.IsFile key)
    (h : writeBuffers ⟨Editor.asHost, config, encoding⟩ (bs.map fun b => (b.id, b.path)) ⟨e, d⟩ =
      .ok () w') :
    w'.disk.locate .never oldPath = .ok spot ∧
      w'.disk.get? key = some (.file contents.toBytes) ∧
      ∀ other, other ≠ key → w'.disk.get? other = d.get? other := by
  induction bs generalizing d with
  | nil => exact absurd rfl hne
  | cons b rest ih =>
    obtain ⟨hb, hunder, hsame⟩ := hbs b List.mem_cons_self
    obtain ⟨_, between, hwrite, hrest⟩ := exists_of_bind_ok h
    obtain ⟨disk, hwritten, rfl⟩ := Editor.exists_of_writeBuffer hb hwrite
    obtain ⟨hnames, rfl, hlocate⟩ :=
      DiskAction.exists_of_write_under hlocate₀ hspot hway hentry hunder hwritten
    rw [hsame hnames] at hrest hlocate
    have hget (other : Key) : (d.set key (.file contents.toBytes)).get? other =
        if other = key then some (.file contents.toBytes) else d.get? other :=
      Disk.get?_set hspot.ne_nil
    by_cases hnil : rest = []
    · subst hnil
      cases hrest
      exact ⟨hlocate, by simp [hget], fun other hother => by simp [hget, hother]⟩
    · obtain ⟨hlocate', hfile, hothers⟩ := ih (fun c hc => hbs c (List.mem_cons_of_mem _ hc)) hnil
        (.inr hlocate) (.inr ⟨contents.toBytes, by simp [hget]⟩) hrest
      exact ⟨hlocate', hfile, fun other hother => by rw [hothers other hother, hget, if_neg hother]⟩

namespace RenameRun

variable {cleared written made renamed : Disk}
  (hrun : RenameRun config encoding oldPath newPath w w' cleared written made renamed)
include hrun

/-- Moving the buffers reads files and writes none. -/
theorem disk_eq : w'.disk = renamed := by
  have hkeeps := keeps_moveBuffers (a := ⟨Editor.asHost, config, encoding⟩)
    Editor.keeps_sameDisk Editor.sameDisk_loadBuffer oldPath newPath
    ((w.host.buffersUnder oldPath).map fun b => (b.id, b.path)) ⟨w.host, renamed⟩
  rwa [hrun.moves] at hkeeps

/-- Before a renaming moves a file, the file is written from its buffers, if these are not modified.
What was removed to make way does not matter: no other file is written, and no link is made. -/
theorem written_file (hs : w.host.Sound) (hold : oldPath.isAbsolute = true)
    (hlocate : w.disk.locate .never oldPath = .ok spot) (hspot : spot.IsFor key)
    (hget : w.disk.get? key = some (.file contents.toBytes)) (hend : contents.IsTerminated)
    (hopen : ∃ b ∈ w.host.buffers, b.path.same oldPath = true)
    (hmirrors : ∀ b ∈ w.host.buffers, b.path.same oldPath = true → b.Mirrors contents) :
    written.locate .never oldPath = .ok spot ∧
      written.get? key = some (.file contents.writtenBack.toBytes) ∧
      ∀ other link, written.get? other = some (.link link) →
        w.disk.get? other = some (.link link) := by
  have hthin : Disk.Thinned w.disk cleared := by
    rcases hrun.clears with rfl | hremove
    · exact .refl _
    · exact (DiskAction.leadsNowhere_of_remove hremove).2.1
  have hway := hthin.locate oldPath
  rw [hlocate] at hway
  have hentry : cleared.get? key = none ∨ cleared.IsFile key := by
    rcases hthin key with hsame | hnone
    · exact .inr ⟨_, hsame.trans hget⟩
    · exact .inl hnone
  have hbuffers : ∀ b ∈ w.host.buffersUnder oldPath, w.host.buffer? b.id = some b ∧
      oldPath.names <+: b.path.names ∧
      (b.path.names = oldPath.names → b.contents = contents.writtenBack) := by
    intro b hb
    obtain ⟨hmem, hunder⟩ := Editor.mem_buffersUnder.1 hb
    obtain ⟨habsolute, hnames⟩ := (Path.startsWith_iff hold).1 hunder
    exact ⟨Editor.buffer?_of_mem hs.numbered hmem, hnames, fun heq =>
      (hmirrors b hmem ((Path.same_iff hold).2 ⟨habsolute, heq⟩)).contents_eq hend⟩
  have hne : w.host.buffersUnder oldPath ≠ [] := by
    obtain ⟨b, hb, hsame⟩ := hopen
    obtain ⟨habsolute, heq⟩ := (Path.same_iff hold).1 hsame
    exact List.ne_nil_of_mem (Editor.mem_buffersUnder.2
      ⟨hb, (Path.startsWith_iff hold).2 ⟨habsolute, heq ▸ List.prefix_rfl⟩⟩)
  obtain ⟨hlocate', hfile, hothers⟩ :=
    file_of_writeBuffers hlocate hspot hbuffers hne hway hentry hrun.writes
  refine ⟨hlocate', hfile, fun other link hlink => ?_⟩
  have hother : other ≠ key := by
    rintro rfl
    cases hfile.symm.trans hlink
  rw [show written.get? other = cleared.get? other from hothers other hother] at hlink
  rcases hthin other with hsame | hnone
  · exact hsame.symm.trans hlink
  · cases hnone.symm.trans hlink

/-- An applied renaming takes a file to the new path as it is written from its buffers, if these are
not modified. -/
theorem exists_renamed (hs : w.host.Sound) (hold : oldPath.isAbsolute = true)
    (hfile : w.disk.linkStatus oldPath = .ok (key, .file contents.toBytes))
    (hend : contents.IsTerminated)
    (hopen : ∃ b ∈ w.host.buffers, b.path.same oldPath = true)
    (hmirrors : ∀ b ∈ w.host.buffers, b.path.same oldPath = true → b.Mirrors contents) :
    ∃ key', w'.disk.get? key' = some (.file contents.writtenBack.toBytes) ∧
      (w'.disk.linkStatus newPath = .ok (key', .file contents.writtenBack.toBytes) ∨
        (∃ link, w.disk.get? key' = some (.link link)) ∧
          w'.disk.linkStatus newPath = .error .notDirectory) := by
  obtain ⟨spot, hlocate, hspot, hget⟩ := Disk.exists_spot_of_linkStatus hfile
  obtain ⟨hwritten, hfile', hlinks⟩ :=
    hrun.written_file hs hold hlocate hspot hget hend hopen hmirrors
  have hmore : Disk.MoreDirs written made := by
    have hkeeps := DiskAction.keeps_createParents DiskAction.keeps_moreDirs newPath written
    rwa [hrun.makes] at hkeeps
  have hstatus : made.linkStatus oldPath = .ok (key, .file contents.writtenBack.toBytes) :=
    Disk.linkStatus_of_locate (hmore.locate hwritten hspot hfile') hspot (hmore.get?_of_some hfile')
  rw [hrun.disk_eq]
  obtain ⟨key', hget', hplace⟩ := DiskAction.exists_of_rename hstatus hrun.renames
  refine ⟨key', hget', hplace.imp_right fun ⟨⟨link, hlink⟩, herror⟩ => ⟨⟨link, ?_⟩, herror⟩⟩
  exact hlinks key' link (hmore.get?_of_link hlink)

end RenameRun

/-- In every session, take contents that are empty or end in a line feed, and call it writing them
back if a single line feed becomes an empty file, and all other contents stay. A file with such
contents that is not open is loaded as it is. As long as the buffer and the file are not modified,
writing the buffer succeeds and writes the contents back, and changes no file otherwise; nothing in
a file tree forbids it, and there is always space. A renaming
of the file with a buffer that is not modified, if it is applied, writes the contents back and takes
them to the new path; only where the file takes the place of a link that the new path leads through,
this path leads nowhere then. -/
theorem contents_writtenBack {disk : Disk} {steps : List Session.Step}
    (hw : Session.run ⟨.empty, disk⟩ steps = w) (hend : contents.IsTerminated) :
    (∀ path, w.host.findBuffer? path = none → w.disk.readText? path = .ok contents →
      ∃ id w₁, Editor.loadBuffer path w = .ok id w₁ ∧ w₁.disk = w.disk ∧
        Editor.Unmodified id path contents w₁) ∧
    (∀ id path w₁, Editor.Unmodified id path contents w₁ →
      ∃ w₂, Editor.writeBuffer id w₁ = .ok () w₂ ∧ w₂.host = w₁.host ∧
        w₂.disk.readText? path = .ok contents.writtenBack ∧
        (contents ≠ ['\n'] → ∀ key, w₂.disk.get? key = w₁.disk.get? key)) ∧
    ∀ (config : Config) (encoding : Encoding) (change : RenameFile) (oldPath newPath : Path)
      (key : Key) (w' : World Editor), change.oldUri.toPath? = some oldPath →
      change.newUri.toPath? = some newPath →
      w.disk.linkStatus oldPath = .ok (key, .file contents.toBytes) →
      (∃ b ∈ w.host.buffers, b.path.same oldPath = true) →
      (∀ b ∈ w.host.buffers, b.path.same oldPath = true → b.Mirrors contents) →
      renameFile ⟨Editor.asHost, config, encoding⟩ change w = .ok .applied w' →
      ∃ key', w'.disk.get? key' = some (.file contents.writtenBack.toBytes) ∧
        (w'.disk.linkStatus newPath = .ok (key', .file contents.writtenBack.toBytes) ∨
          (∃ link, w.disk.get? key' = some (.link link)) ∧
            w'.disk.linkStatus newPath = .error .notDirectory) := by
  have hs : w.host.Sound := hw ▸ Session.hostSound_run disk steps
  refine ⟨fun path => Editor.exists_loadBuffer hs,
    fun id path w₁ => Editor.exists_writeBuffer hend, ?_⟩
  intro config encoding change oldPath newPath key w' holdUri hnewUri hfile hopen hmirrors happlied
  obtain ⟨cleared, written, made, renamed, hrun⟩ := exists_renameRun hs holdUri hnewUri happlied
  exact hrun.exists_renamed hs (Uri.isAbsolute_of_toPath? holdUri) hfile hend hopen hmirrors

/-- A file that ends in an empty line is loaded through a link and written back, and is renamed
while it is open in another spelling of its path. -/
theorem contents_writtenBack_linked :
    let contents : Text := ['a', '\n', '\n']
    let disk : Disk := ⟨[([[0x64]], .dir), ([[0x64], [0x78]], .file contents.toBytes),
      ([[0x6C]], .link [0x64])]⟩
    let w := Session.run ⟨.empty, disk⟩ [.editor (.call (.loadBuffer (.ofString "/d//x")))]
    let change : RenameFile := ⟨⟨"file:///d/x".toList, by decide +kernel⟩,
      ⟨"file:///e/y".toList, by decide +kernel⟩, false, false⟩
    let w' := left (renameFile ⟨Editor.asHost, .standard, .utf16⟩ change w)
    contents.IsTerminated ∧
      (∃ id w₁ w₂, Editor.loadBuffer (.ofString "/l/x") w = .ok id w₁ ∧
        Editor.writeBuffer id w₁ = .ok () w₂ ∧ ∀ key, w₂.disk.get? key = w.disk.get? key) ∧
      renameFile ⟨Editor.asHost, .standard, .utf16⟩ change w = .ok .applied w' ∧
      ∃ key, w'.disk.get? key = some (.file contents.toBytes) := by
  intro contents disk w change w'
  have hend : contents.IsTerminated := by decide
  have hsingle : contents ≠ ['\n'] := by decide
  have hback : contents.writtenBack = contents := by decide
  obtain ⟨hload, hwrite, hrename⟩ := contents_writtenBack (w := w) rfl hend
  have happlied : renameFile ⟨Editor.asHost, .standard, .utf16⟩ change w = .ok .applied w' :=
    ApplyAction.eq_ok_of_result (by decide +kernel)
  obtain ⟨id, w₁, hloaded, hdisk, hunmodified⟩ :=
    hload (.ofString "/l/x") (by decide +kernel) (by decide +kernel)
  obtain ⟨w₂, hwritten, -, -, hkeys⟩ := hwrite id _ w₁ hunmodified
  obtain ⟨key, hkey, -⟩ := hrename .standard .utf16 change (.ofString "/d/x") (.ofString "/e/y")
    [[0x64], [0x78]] w' (by decide +kernel) (by decide +kernel) (by decide +kernel)
    (by decide +kernel) (by decide +kernel) happlied
  exact ⟨hend, ⟨id, w₁, w₂, hloaded, hwritten, fun key => hdisk ▸ hkeys hsingle key⟩, happlied, key,
    hback ▸ hkey⟩

/-- A file that holds a single line feed is empty after it was loaded and written. -/
theorem contents_writtenBack_empties :
    let path : Path := .ofString "/a"
    let w : World Editor := ⟨.empty, ⟨[([[0x61]], .file (Text.toBytes ['\n']))]⟩⟩
    w.host.findBuffer? path = none ∧ w.disk.readText? path = .ok ['\n'] ∧
      ∃ id w₁ w₂, Editor.loadBuffer path w = .ok id w₁ ∧ Editor.writeBuffer id w₁ = .ok () w₂ ∧
        w₂.disk.readText? path = .ok [] := by
  intro path w
  have hfind : w.host.findBuffer? path = none := rfl
  have hread : w.disk.readText? path = .ok ['\n'] := by decide +kernel
  obtain ⟨id, w₁, hloaded, -, hunmodified⟩ :=
    Editor.exists_loadBuffer Editor.sound_empty hfind hread
  obtain ⟨w₂, hwritten, -, hempty, -⟩ := Editor.exists_writeBuffer (by decide) hunmodified
  exact ⟨hfind, hread, id, w₁, w₂, hloaded, hwritten, hempty⟩

end Applier

end WorkspaceEditing
