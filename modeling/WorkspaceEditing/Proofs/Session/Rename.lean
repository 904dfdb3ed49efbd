import WorkspaceEditing.Proofs.Apply.Rename
import WorkspaceEditing.Proofs.Editor.Carry
import WorkspaceEditing.Proofs.Editor.Files
import WorkspaceEditing.Proofs.Session.Sound

/-!
# Renaming in a session

In every session a renaming that is applied carries the open buffers along: what was open beneath
the old path is open at the corresponding place beneath the new one, with the same text and in the
same windows. Where a buffer is open already at such a place, however, the windows come to show that
one, with the text that it has, and not the text of the file that now stands there.

## Main definitions

* `Applier.RenameRun` — what an applied renaming has done.

## Main results

* `Applier.renameFile_carries` — buffers and windows are carried along to places that are free.
* `Applier.renameFile_reuses` — a buffer that is open at its place is shown as it is.
* `Applier.renameFile_shows_stale` — and its text may differ from that of the renamed file.
-/

namespace WorkspaceEditing

open Protocol

/-- The open buffers at a path or beneath it. -/
def Editor.buffersUnder (e : Editor) (root : Path) : List Buffer :=
  e.buffers.filter fun b => b.path.startsWith root

namespace Editor

variable {e : Editor} {root : Path} {b : Buffer}

theorem mem_buffersUnder :
    b ∈ e.buffersUnder root ↔ b ∈ e.buffers ∧ b.path.startsWith root = true := List.mem_filter

theorem DistinctPaths.buffersUnder (h : e.DistinctPaths) (root : Path) :
    (e.buffersUnder root).Pairwise fun b c => b.path.same c.path = false :=
  (List.pairwise_map.1 h).sublist List.filter_sublist

end Editor

namespace Applier

variable {config : Config} {encoding : Encoding} {change : RenameFile} {oldPath newPath : Path}
  {w w' : World Editor} {disk₀ : Disk} {steps : List Session.Step}

theorem buffersUnder_ok (root : Path) (w : World Editor) :
    buffersUnder ⟨Editor.asHost, config, encoding⟩ root w =
      .ok ((w.host.buffersUnder root).map fun b => (b.id, b.path)) w := by
  show EStateM.Result.ok _ _ = _
  rw [Editor.bufferPaths, List.filter_map]
  rfl

/-- What an applied renaming has done, with the file trees in between: it has made way at the new
path, written the buffers under the old one, made the directories above the new one, renamed, and
moved the buffers. -/
structure RenameRun (config : Config) (encoding : Encoding) (oldPath newPath : Path)
    (w w' : World Editor) (cleared written made renamed : Disk) : Prop where
  clears : cleared = w.disk ∨ DiskAction.remove newPath true w.disk = .ok () cleared
  writes : writeBuffers ⟨Editor.asHost, config, encoding⟩
    ((w.host.buffersUnder oldPath).map fun b => (b.id, b.path)) ⟨w.host, cleared⟩ =
      .ok () ⟨w.host, written⟩
  makes : createParents newPath written = .ok () made
  renames : DiskAction.rename oldPath newPath made = .ok () renamed
  moves : moveBuffers ⟨Editor.asHost, config, encoding⟩ oldPath newPath
    ((w.host.buffersUnder oldPath).map fun b => (b.id, b.path)) ⟨w.host, renamed⟩ = .ok () w'

theorem exists_renameRun (hs : w.host.Sound) (hold : change.oldUri.toPath? = some oldPath)
    (hnew : change.newUri.toPath? = some newPath)
    (h : renameFile ⟨Editor.asHost, config, encoding⟩ change w = .ok .applied w') :
    ∃ cleared written made renamed,
      RenameRun config encoding oldPath newPath w w' cleared written made renamed := by
  obtain ⟨cleared, hcleared, hrelocate⟩ := exists_of_renameFile hold hnew h
  obtain ⟨⟨host, written⟩, made, renamed, hwritten, hmade, hrenamed, hmoved⟩ :=
    exists_of_relocate (buffersUnder_ok oldPath { w with disk := cleared }) hrelocate
  obtain rfl : host = w.host := host_of_writeBuffers (fun b hb =>
    Editor.buffer?_of_mem hs.numbered (List.mem_of_mem_filter hb)) hwritten
  exact ⟨cleared, written, made, renamed, ⟨hcleared, hwritten, hmade, hrenamed, hmoved⟩⟩

/-! ## Places that are free -/

/-- In a tree without links, an applied renaming leaves at each place where a buffer goes to a file
with the contents of the buffer, and neither path leads through the other. -/
theorem RenameRun.files {cleared written made renamed : Disk}
    (hrun : RenameRun config encoding oldPath newPath w w' cleared written made renamed)
    (hs : w.host.Sound) (hdistinct : w.host.DistinctPaths)
    (hdirect : ∀ b ∈ w.host.buffers, b.path.IsDirect) (hplain : w.disk.IsPlain)
    (hold : oldPath.isAbsolute = true) (holdDirect : oldPath.IsDirect)
    (hnewDirect : newPath.IsDirect) (hne : oldPath.names ≠ newPath.names) :
    renamed.IsPlain ∧ made.Movable oldPath.names newPath.names ∧
      ∀ b ∈ w.host.buffersUnder oldPath, ∀ rest, b.path.names = oldPath.names ++ rest →
        renamed.get? (newPath.names ++ rest) = some (.file b.contents.toBytes) := by
  have hcleared : cleared.IsPlain := by
    rcases hrun.clears with rfl | hremove
    · exact hplain
    · have hspares := DiskAction.spares_remove hnewDirect true w.disk hplain
      rw [hremove] at hspares
      exact hspares.1
  have hnames : (w.host.buffersUnder oldPath).Pairwise
      fun b c => b.path.names ≠ c.path.names := by
    refine (hdistinct.buffersUnder oldPath).imp_of_mem fun hb hc hsame heq => ?_
    have hb := ((Path.startsWith_iff hold).1 (Editor.mem_buffersUnder.1 hb).2).1
    have hc := ((Path.startsWith_iff hold).1 (Editor.mem_buffersUnder.1 hc).2).1
    simp [(Path.same_iff hc).2 ⟨hb, heq⟩] at hsame
  obtain ⟨hplain₂, hfiles, -⟩ := written_of_writeBuffers hcleared (fun b hb =>
    ⟨Editor.buffer?_of_mem hs.numbered (List.mem_of_mem_filter hb),
      hdirect b (List.mem_of_mem_filter hb)⟩) hnames hrun.writes
  have hextends := DiskAction.extends_createParents newPath written
  rw [hrun.makes] at hextends
  obtain ⟨hplain₃, hstays⟩ := hextends hplain₂
  rcases (DiskAction.commits_rename hplain₃ holdDirect hnewDirect).of_ok hrun.renames with
    ⟨heq, -⟩ | ⟨hmovable, rfl⟩
  · exact absurd heq hne
  · refine ⟨hmovable.isPlain_move hplain₃, hmovable, fun b hb rest hrest => ?_⟩
    rw [hmovable.get?_move_append, ← hrest]
    exact hstays _ _ (hfiles b hb)

/-- In every session, an applied renaming carries the buffers under the old path along, if they get
a line break at their end when they are written, and none is open under the new path: each has an
heir at the corresponding place, with its text and in its windows, whose cursors stay; the file
there holds what is written for it; nothing is open under the old path any more; and the other
buffers, the other windows and the focus are as they were. -/
theorem renameFile_carries (hw : Session.run ⟨.empty, disk₀⟩ steps = w)
    (hdistinct : w.host.DistinctPaths) (hdirect : ∀ b ∈ w.host.buffers, b.path.IsDirect)
    (hplain : w.disk.IsPlain) (holdUri : change.oldUri.toPath? = some oldPath)
    (hnewUri : change.newUri.toPath? = some newPath) (hold : oldPath.IsDirect)
    (hnew : newPath.IsDirect) (hne : oldPath.same newPath = false)
    (hfree : ∀ b ∈ w.host.buffers, b.path.startsWith newPath = false)
    (hfixes : ∀ b ∈ w.host.buffersUnder oldPath, b.fixesEndOfLine = true)
    (happlied : renameFile ⟨Editor.asHost, config, encoding⟩ change w = .ok .applied w') :
    ∃ heir, Editor.Carried oldPath newPath (w.host.buffersUnder oldPath) heir w.host w'.host ∧
      (∀ b ∈ w.host.buffersUnder oldPath, ∀ b' ∈ w'.host.buffers, b'.id = heir b.id →
        w'.disk.get? b'.path.names = some (.file b.contents.toBytes)) ∧
      w'.host.buffersUnder oldPath = [] := by
  have hs : w.host.Sound := hw ▸ Session.hostSound_run disk₀ steps
  have hs' : w'.host.Sound := by
    have hstep := (Session.sound_later_step w (.applyChange config encoding (.rename change))).1 hs
    rwa [Session.Step.world, applyChange, happlied] at hstep
  have holdAbsolute := Uri.isAbsolute_of_toPath? holdUri
  have hnewAbsolute := Uri.isAbsolute_of_toPath? hnewUri
  have hnames : oldPath.names ≠ newPath.names := fun heq => by
    simp [(Path.same_iff hnewAbsolute).2 ⟨holdAbsolute, heq⟩] at hne
  obtain ⟨cleared, written, made, renamed, hrun⟩ :=
    exists_renameRun hs holdUri hnewUri happlied
  obtain ⟨hplain', hmovable, hfiles⟩ :=
    hrun.files hs hdistinct hdirect hplain holdAbsolute hold hnew hnames
  have hfree' : ∀ c ∈ w.host.buffers, ∀ b ∈ w.host.buffersUnder oldPath,
      ¬ Path.Corresponds oldPath newPath b.path c.path := by
    rintro c hc b - ⟨habsolute, rest, -, hrest⟩
    have hunder := (Path.startsWith_iff hnewAbsolute).2 ⟨habsolute, rest, hrest.symm⟩
    simp [hfree c hc] at hunder
  -- at its new place a buffer is read as it was written at the old one
  have hread : ∀ b ∈ w.host.buffersUnder oldPath, ∀ path,
      Path.Corresponds oldPath newPath b.path path → ∀ e text w',
        Editor.readFile path ⟨e, renamed⟩ = .ok text w' → text = b.text := by
    intro b hb path hplace e text w' hread
    have hpath := hplace.isDirect (hdirect b (Editor.mem_buffersUnder.1 hb).1) hnew
    obtain ⟨-, rest, hrest, hrest'⟩ := hplace
    exact Editor.text_of_readFile hplain' hpath (hfixes b hb) (hrest' ▸ hfiles b hb rest hrest)
      hread
  obtain ⟨hdisk, heir, hcarried⟩ := carried_of_moveBuffers holdAbsolute hnewAbsolute hs
    (fun b hb => Editor.mem_buffersUnder.1 hb) (hdistinct.buffersUnder oldPath) hfree' hread
    hrun.moves
  refine ⟨heir, hcarried, ?_, ?_⟩
  · intro b hb b' hb' hid
    obtain ⟨found, hfound, hfoundId, -, -, rest, hrest, hrest'⟩ := hcarried.moves b hb
    obtain rfl := hs'.numbered.eq_of_id hfound hb' (hfoundId.trans hid.symm)
    rw [hdisk, hrest']
    exact hfiles b hb rest hrest
  -- the new path does not lead back under the old one, so no heir is there
  · rw [Editor.buffersUnder, List.filter_eq_nil_iff]
    intro c hc hunder
    rcases hcarried.origin c hc with ⟨hold, hnot⟩ | ⟨b, -, -, -, -, rest, -, hrest⟩
    · exact hnot (Editor.mem_buffersUnder.2 ⟨hold, hunder⟩)
    · have hleads := ((Path.startsWith_iff holdAbsolute).1 hunder).2
      rw [hrest] at hleads
      exact (List.prefix_or_prefix_of_prefix hleads (List.prefix_append _ rest)).elim
        hmovable.apart hmovable.apart'

/-- A directory with two open files is renamed to a place in a directory that has to be made. -/
theorem renameFile_carries_directory :
    let disk : Disk := ⟨[([[0x64]], .dir),
      ([[0x64], [0x78]], .file (Text.toBytes ['o', 'n', 'e', '\n'])),
      ([[0x64], [0x79]], .file (Text.toBytes ['t', 'w', 'o']))]⟩
    let w := Session.run ⟨.empty, disk⟩ [.editor (.call (.loadBuffer (.ofString "/d/x"))),
      .editor (.call (.loadBuffer (.ofString "/d//y"))),
      .editor (.insertBuffer (.ofString "/dx") ['z']), .editor (.openWindow ⟨2⟩),
      .editor (.call (.setCursor ⟨0, 2⟩)), .editor (.openWindow ⟨3⟩), .editor (.openWindow ⟨2⟩)]
    let change : RenameFile := ⟨⟨"file:///d".toList, by decide +kernel⟩,
      ⟨"file:///e/f".toList, by decide +kernel⟩, false, false⟩
    let w' := left (renameFile ⟨Editor.asHost, .standard, .utf16⟩ change w)
    (w.host.buffersUnder (.ofString "/d")).map (·.id) = [⟨1⟩, ⟨2⟩] ∧
      renameFile ⟨Editor.asHost, .standard, .utf16⟩ change w = .ok .applied w' ∧
      ∃ heir, Editor.Carried (.ofString "/d") (.ofString "/e/f")
          (w.host.buffersUnder (.ofString "/d")) heir w.host w'.host ∧
        (∀ b ∈ w.host.buffersUnder (.ofString "/d"), ∀ b' ∈ w'.host.buffers, b'.id = heir b.id →
          w'.disk.get? b'.path.names = some (.file b.contents.toBytes)) ∧
        w'.host.buffersUnder (.ofString "/d") = [] := by
  intro disk w change w'
  have happlied : renameFile ⟨Editor.asHost, .standard, .utf16⟩ change w = .ok .applied w' :=
    ApplyAction.eq_ok_of_result (by decide +kernel)
  have hdistinct : w.host.DistinctPaths := by
    unfold Editor.DistinctPaths
    decide +kernel
  exact ⟨by decide +kernel, happlied, renameFile_carries rfl hdistinct (by decide +kernel)
    (.of_entries (by decide +kernel)) (by decide +kernel) (by decide +kernel) (by decide +kernel)
    (by decide +kernel) (by decide +kernel) (by decide +kernel) (by decide +kernel) happlied⟩

/-! ## Places that are taken -/

/-- In every session, whatever the file tree is like, an applied renaming leaves a buffer that is
open where another one goes to as it is, if it is not itself under the old path; and every window
that showed the other one shows it. -/
theorem renameFile_reuses (hw : Session.run ⟨.empty, disk₀⟩ steps = w)
    (holdUri : change.oldUri.toPath? = some oldPath)
    (hnewUri : change.newUri.toPath? = some newPath)
    (happlied : renameFile ⟨Editor.asHost, config, encoding⟩ change w = .ok .applied w')
    {b d : Buffer} (hb : b ∈ w.host.buffers) (hd : d ∈ w.host.buffers) {suffix : Path}
    (hsuffix : b.path.stripPrefix? oldPath = some suffix)
    (hfind : w.host.findBuffer? (newPath.join suffix) = some d.id)
    (hapart : d.path.startsWith oldPath = false) :
    d ∈ w'.host.buffers ∧ ∀ win ∈ w.host.windows, win.buffer = b.id →
      ∃ win' ∈ w'.host.windows, win'.id = win.id ∧ win'.buffer = d.id := by
  have hs : w.host.Sound := hw ▸ Session.hostSound_run disk₀ steps
  have hold := Uri.isAbsolute_of_toPath? holdUri
  have hnew := Uri.isAbsolute_of_toPath? hnewUri
  have hunder := Path.startsWith_of_stripPrefix? hsuffix
  obtain ⟨found, hfound, hid⟩ := Option.map_eq_some_iff.1 hfind
  obtain rfl := hs.numbered.eq_of_id (List.mem_of_find?_eq_some hfound) hd hid
  have hplace : Path.Corresponds oldPath newPath b.path found.path :=
    (Path.corresponds_join hold hnew hunder hsuffix).of_same (by simpa using List.find?_some hfound)
  have hnames : oldPath.names ≠ newPath.names := by
    intro heq
    obtain ⟨habsolute, rest, -, hrest⟩ := hplace
    have := (Path.startsWith_iff hold).2 ⟨habsolute, rest, (heq ▸ hrest).symm⟩
    simp [hapart] at this
  have hnodup : (w.host.buffersUnder oldPath).Nodup :=
    ((List.nodup_append.1 hs.numbered.nodup).1.of_map _).filter _
  obtain ⟨cleared, written, made, renamed, hrun⟩ :=
    exists_renameRun hs holdUri hnewUri happlied
  obtain ⟨hstays, hshown⟩ := reused_of_moveBuffers hold hnew hnames hs
    (fun c hc => Editor.mem_buffersUnder.1 hc) hnodup hd
    (fun hmem => by simp [(Editor.mem_buffersUnder.1 hmem).2] at hapart) hsuffix hfind hrun.moves
  exact ⟨hstays, fun win hwin heq =>
    hshown win hwin (.inr ⟨Editor.mem_buffersUnder.2 ⟨hb, hunder⟩, heq⟩)⟩

/-- A file is renamed over another one, both of them open. -/
theorem renameFile_reuses_overwritten :
    let disk : Disk := ⟨[([[0x78]], .file (Text.toBytes ['n', 'e', 'w', '\n'])),
      ([[0x79]], .file (Text.toBytes ['o', 'l', 'd', '\n']))]⟩
    let w := Session.run ⟨.empty, disk⟩ [.editor (.call (.loadBuffer (.ofString "/x"))),
      .editor (.call (.loadBuffer (.ofString "/y"))), .editor (.openWindow ⟨1⟩)]
    let change : RenameFile := ⟨⟨"file:///x".toList, by decide +kernel⟩,
      ⟨"file:///y".toList, by decide +kernel⟩, true, false⟩
    let w' := left (renameFile ⟨Editor.asHost, .standard, .utf16⟩ change w)
    let b := Buffer.new ⟨1⟩ (.ofString "/x") ['n', 'e', 'w']
    let d := Buffer.new ⟨2⟩ (.ofString "/y") ['o', 'l', 'd']
    renameFile ⟨Editor.asHost, .standard, .utf16⟩ change w = .ok .applied w' ∧
      b ∈ w.host.buffers ∧ d ∈ w.host.buffers ∧ d ∈ w'.host.buffers ∧
      ∀ win ∈ w.host.windows, win.buffer = b.id →
        ∃ win' ∈ w'.host.windows, win'.id = win.id ∧ win'.buffer = d.id := by
  intro disk w change w' b d
  have happlied : renameFile ⟨Editor.asHost, .standard, .utf16⟩ change w = .ok .applied w' :=
    ApplyAction.eq_ok_of_result (by decide +kernel)
  have hold : change.oldUri.toPath? = some (.ofString "/x") := by decide +kernel
  have hnew : change.newUri.toPath? = some (.ofString "/y") := by decide +kernel
  have hb : b ∈ w.host.buffers := by decide +kernel
  have hd : d ∈ w.host.buffers := by decide +kernel
  have hsuffix : b.path.stripPrefix? (.ofString "/x") = some (.ofString "") := by decide +kernel
  exact ⟨happlied, hb, hd, renameFile_reuses rfl hold hnew happlied hb hd hsuffix
    (by decide +kernel) (by decide +kernel)⟩

/-- The window on a file that is renamed over another one comes to show the text that the other one
had, while the file there has the renamed text. -/
theorem renameFile_shows_stale :
    let disk : Disk := ⟨[([[0x78]], .file (Text.toBytes ['n', 'e', 'w', '\n'])),
      ([[0x79]], .file (Text.toBytes ['o', 'l', 'd', '\n']))]⟩
    let w := Session.run ⟨.empty, disk⟩ [.editor (.call (.loadBuffer (.ofString "/x"))),
      .editor (.call (.loadBuffer (.ofString "/y"))), .editor (.openWindow ⟨1⟩)]
    let change : RenameFile := ⟨⟨"file:///x".toList, by decide +kernel⟩,
      ⟨"file:///y".toList, by decide +kernel⟩, true, false⟩
    let result := (renameFile ⟨Editor.asHost, .standard, .utf16⟩ change).result w
    result.1 = .ok .applied ∧ w.host.windowBuffer? ⟨3⟩ = some ⟨1⟩ ∧
      w.host.text? ⟨1⟩ = some ['n', 'e', 'w'] ∧ result.2.host.windowBuffer? ⟨3⟩ = some ⟨2⟩ ∧
      result.2.host.text? ⟨2⟩ = some ['o', 'l', 'd'] ∧
      result.2.disk.readText? (.ofString "/y") = .ok ['n', 'e', 'w', '\n'] := by
  decide +kernel

end Applier

end WorkspaceEditing
