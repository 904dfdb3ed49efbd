import WorkspaceEditing.Proofs.Editor.Move
import WorkspaceEditing.Proofs.Path.Names

/-!
# Buffers carried along

When a path is renamed, the buffers beneath it move one after the other. Where no buffer is open at
the places they go to, each is carried along: it has an heir there with its text, in all its
windows. Where one is open, the windows show it, whatever text it has.

## Main definitions

* `Path.Corresponds` — a path beneath one base, and its place beneath another.
* `Editor.Carried` — some buffers have been carried along.

## Main results

* `Applier.carried_of_moveBuffers` — buffers that find their places free are carried along.
* `Applier.reused_of_moveBuffers` — a buffer that is open already stays, and is shown instead.
-/

namespace WorkspaceEditing

/-! ## Places under another path -/

namespace Path

variable {oldPath newPath p q p' q' : Path}

/-- One path has the rest of its names behind one base that another path has behind another base. -/
def Corresponds (oldPath newPath p p' : Path) : Prop :=
  p'.isAbsolute = true ∧ ∃ rest, p.names = oldPath.names ++ rest ∧ p'.names = newPath.names ++ rest

/-- What a path beneath one base is taken to corresponds to it. -/
theorem corresponds_join {suffix : Path} (hold : oldPath.isAbsolute = true)
    (hnew : newPath.isAbsolute = true) (hunder : p.startsWith oldPath = true)
    (hsuffix : p.stripPrefix? oldPath = some suffix) :
    Corresponds oldPath newPath p (newPath.join suffix) := by
  obtain ⟨rest, hrest⟩ := ((startsWith_iff hold).1 hunder).2
  refine ⟨isAbsolute_join hnew suffix, rest, hrest.symm, ?_⟩
  rw [names_join, names_of_stripPrefix? hsuffix, ← hrest, List.drop_left]

theorem Corresponds.of_same (h : Corresponds oldPath newPath p p') (hsame : q'.same p' = true) :
    Corresponds oldPath newPath p q' := by
  obtain ⟨habsolute, rest, hrest, hrest'⟩ := h
  obtain ⟨hq, hnames⟩ := (same_iff habsolute).1 hsame
  exact ⟨hq, rest, hrest, hnames.trans hrest'⟩

/-- Two absolute paths that one path corresponds to are the same. -/
theorem Corresponds.same (h : Corresponds oldPath newPath p p')
    (h' : Corresponds oldPath newPath q p') (hp : p.isAbsolute = true) (hq : q.isAbsolute = true) :
    p.same q = true := by
  obtain ⟨-, rest, hrest, hnames⟩ := h
  obtain ⟨-, rest', hrest', hnames'⟩ := h'
  rw [same_iff hq]
  rw [hnames, List.append_cancel_left_eq] at hnames'
  exact ⟨hp, by rw [hrest, hrest', hnames']⟩

theorem Corresponds.isDirect (h : Corresponds oldPath newPath p p') (hp : p.IsDirect)
    (hnew : newPath.IsDirect) : p'.IsDirect := by
  obtain ⟨-, rest, hrest, hrest'⟩ := h
  unfold IsDirect at *
  rw [hrest, List.mem_append, not_or] at hp
  rw [hrest', List.mem_append, not_or]
  exact ⟨hnew, hp.2⟩

theorem same_refl (p : Path) : p.same p = true := by simp [Path.same]

end Path

/-! ## Buffers carried along -/

namespace Editor

variable {oldPath newPath : Path} {moved rest : List Buffer} {heir heir' : BufferId → BufferId}
  {e e' e'' : Editor} {b : Buffer}

/-- Some buffers have been opened again at the corresponding places under another path, each under
the handle of its heir. Their windows show the heirs, and all else is as it was. -/
structure Carried (oldPath newPath : Path) (moved : List Buffer) (heir : BufferId → BufferId)
    (e e' : Editor) : Prop where
  focus : e'.focus = e.focus
  windows : e'.windows = e.windows.map fun win => { win with buffer := heir win.buffer }
  stays : ∀ b ∈ e.buffers, b ∉ moved → b ∈ e'.buffers ∧ heir b.id = b.id
  moves : ∀ b ∈ moved, ∃ b' ∈ e'.buffers, b'.id = heir b.id ∧ b'.text = b.text ∧
    Path.Corresponds oldPath newPath b.path b'.path
  origin : ∀ b' ∈ e'.buffers, b' ∈ e.buffers ∧ b' ∉ moved ∨ ∃ b ∈ moved, b'.id = heir b.id ∧
    b'.text = b.text ∧ Path.Corresponds oldPath newPath b.path b'.path

theorem carried_nil (e : Editor) : Carried oldPath newPath [] id e e where
  focus := rfl
  windows := by simp
  stays b hb _ := ⟨hb, rfl⟩
  moves := by simp
  origin b hb := .inl ⟨hb, by simp⟩

/-- When one buffer has been carried along and then others are, which the first one's heir is none
of, all of them have been carried along. -/
theorem Carried.cons (h : Carried oldPath newPath [b] heir e e')
    (h' : Carried oldPath newPath rest heir' e' e'') (hrest : ∀ c ∈ rest, c ∈ e.buffers ∧ c ≠ b)
    (hheir : ∀ c ∈ rest, c.id ≠ heir b.id) :
    Carried oldPath newPath (b :: rest) (heir' ∘ heir) e e'' where
  focus := h'.focus.trans h.focus
  windows := by
    rw [h'.windows, h.windows, List.map_map]
    rfl
  stays c hc hmoved := by
    obtain ⟨hne, hnot⟩ := List.ne_and_not_mem_of_not_mem_cons hmoved
    obtain ⟨hc', hid⟩ := h.stays c hc (by simpa using hne)
    obtain ⟨hc'', hid'⟩ := h'.stays c hc' hnot
    exact ⟨hc'', by rw [Function.comp_apply, hid, hid']⟩
  moves c hc := by
    rcases List.mem_cons.1 hc with rfl | hc
    · obtain ⟨c', hc', hid, htext, hpath⟩ := h.moves c (List.mem_singleton_self c)
      obtain ⟨hc'', hid'⟩ := h'.stays c' hc' fun hmem => hheir c' hmem hid
      exact ⟨c', hc'', by rw [Function.comp_apply, ← hid, hid'], htext, hpath⟩
    · obtain ⟨hold, hne⟩ := hrest c hc
      obtain ⟨-, hid⟩ := h.stays c hold (by simpa using hne)
      obtain ⟨c', hc', hid', hsame⟩ := h'.moves c hc
      exact ⟨c', hc', by rw [Function.comp_apply, hid, hid'], hsame⟩
  origin c hc := by
    rcases h'.origin c hc with ⟨hc', hnot⟩ | ⟨c', hc', hid, hsame⟩
    · rcases h.origin c hc' with ⟨hold, hne⟩ | ⟨c', hc'', hid, hsame⟩
      · exact .inl ⟨hold, by simp_all⟩
      · obtain rfl := List.mem_singleton.1 hc''
        obtain ⟨-, hid'⟩ := h'.stays c hc' hnot
        exact .inr ⟨c', List.mem_cons_self, by rw [Function.comp_apply, ← hid, hid'], hsame⟩
    · obtain ⟨hold, hne⟩ := hrest c' hc'
      obtain ⟨-, hid'⟩ := h.stays c' hold (by simpa using hne)
      exact .inr ⟨c', List.mem_cons_of_mem _ hc', by rw [Function.comp_apply, hid', hid], hsame⟩

/-- The handle that is given out next is not that of an open buffer. -/
theorem Numbered.id_ne_next (h : e.Numbered) (hb : b ∈ e.buffers) : b.id ≠ ⟨e.issued + 1⟩ := by
  intro heq
  have hle := (h.issued b.id.number
    (List.mem_append_left _ (List.mem_map_of_mem (f := fun b => b.id.number) hb))).2
  rw [heq] at hle
  exact Nat.not_succ_le_self _ hle

/-- A buffer that is opened again with its text at another place, and hands its windows over, is
carried along. -/
theorem carried_handOver (hs : e.Sound) (hb : b ∈ e.buffers) {path : Path}
    (hpath : Path.Corresponds oldPath newPath b.path path) :
    Carried oldPath newPath [b] (fun id => if id = b.id then ⟨e.issued + 1⟩ else id) e
      ((e.insertBuffer path b.text).2.handOver b (.new ⟨e.issued + 1⟩ path b.text)) where
  focus := rfl
  windows := by
    apply List.map_congr_left
    intro win hwin
    split_ifs with hshown
    · obtain ⟨shown, hfound, hcursor⟩ := hs.shows win hwin
      obtain rfl : b = shown := by
        rw [hshown, buffer?_of_mem hs.numbered hb] at hfound
        exact Option.some.inj hfound
      simp [Buffer.new, Text.closest_of_has hcursor]
    · rfl
  stays c hc hne := by
    have hid : c.id ≠ b.id := fun heq =>
      hne (List.mem_singleton.2 (hs.numbered.eq_of_id hc hb heq))
    exact ⟨List.mem_filter.2 ⟨List.mem_append_left _ hc, by simpa using hid⟩, if_neg hid⟩
  moves c hc := by
    obtain rfl := List.mem_singleton.1 hc
    refine ⟨.new ⟨e.issued + 1⟩ path c.text, ?_, by simp [Buffer.new], rfl, hpath⟩
    exact List.mem_filter.2 ⟨List.mem_append_right _ (List.mem_singleton_self _),
      decide_eq_true (hs.numbered.id_ne_next hb).symm⟩
  origin c hc := by
    obtain ⟨hc, hne⟩ := List.mem_filter.1 hc
    rcases List.mem_append.1 hc with hc | hc
    · refine .inl ⟨hc, fun hmem => ?_⟩
      simp [List.mem_singleton.1 hmem] at hne
    · obtain rfl := List.mem_singleton.1 hc
      exact .inr ⟨b, List.mem_singleton_self b, by simp [Buffer.new], rfl, hpath⟩

end Editor

namespace Applier

variable {e : Editor} {disk : Disk} {config : Config} {encoding : Encoding}
  {oldPath newPath : Path}

/-- A buffer is carried along when none is open at the place where it goes to, and the file there
has its text. -/
theorem carried_of_moveBuffers_cons (hold : oldPath.isAbsolute = true)
    (hnew : newPath.isAbsolute = true) (hs : e.Sound) {b : Buffer} (hb : b ∈ e.buffers)
    (hunder : b.path.startsWith oldPath = true)
    (hfree : ∀ c ∈ e.buffers, ¬ Path.Corresponds oldPath newPath b.path c.path)
    (hread : ∀ path, Path.Corresponds oldPath newPath b.path path →
      ∀ e text w', Editor.readFile path ⟨e, disk⟩ = .ok text w' → text = b.text)
    {rest : List (BufferId × Path)} {w' : World Editor}
    (h : moveBuffers ⟨Editor.asHost, config, encoding⟩ oldPath newPath ((b.id, b.path) :: rest)
      ⟨e, disk⟩ = .ok () w') :
    ∃ e' : Editor, e'.Sound ∧
      Editor.Carried oldPath newPath [b] (fun id => if id = b.id then ⟨e.issued + 1⟩ else id) e e' ∧
      moveBuffers ⟨Editor.asHost, config, encoding⟩ oldPath newPath rest ⟨e', disk⟩ =
        .ok () w' := by
  obtain ⟨suffix, hsuffix⟩ := Path.exists_stripPrefix? hold hunder
  have hpath := Path.corresponds_join hold hnew hunder hsuffix
  have hnone : ∀ c ∈ e.buffers, c.path.same (newPath.join suffix) ≠ true :=
    fun c hc hsame => hfree c hc (hpath.of_same hsame)
  obtain ⟨d, e', hload, hd, -, hs', hrest⟩ :=
    exists_of_moveBuffers_cons hs hb hsuffix (Bool.eq_false_iff.2 (hnone b hb)) h
  rcases Editor.cases_of_loadBuffer hload with ⟨hfind, -⟩ | ⟨-, hid, text, htext, heq⟩
  · obtain ⟨c, hc, -⟩ := Option.map_eq_some_iff.1 hfind
    exact absurd (by simpa using List.find?_some hc) (hnone c (List.mem_of_find?_eq_some hc))
  · obtain rfl : text = b.text := hread _ hpath e text _ htext
    obtain rfl : e' = (e.insertBuffer (newPath.join suffix) b.text).2 := congrArg World.host heq
    obtain rfl : d = .new ⟨e.issued + 1⟩ (newPath.join suffix) b.text :=
      (hs.insertBuffer _ _).numbered.eq_of_id (List.mem_of_find?_eq_some hd)
        (List.mem_append_right _ (List.mem_singleton_self _)) hid
    exact ⟨_, hs', Editor.carried_handOver hs hb hpath, hrest⟩

/-- Buffers are carried along when none is open at the places where they go to, and the files there
have their texts. -/
theorem carried_of_moveBuffers (hold : oldPath.isAbsolute = true) (hnew : newPath.isAbsolute = true)
    (hs : e.Sound) {moved : List Buffer}
    (hmoved : ∀ b ∈ moved, b ∈ e.buffers ∧ b.path.startsWith oldPath = true)
    (hdistinct : moved.Pairwise fun b c => b.path.same c.path = false)
    (hfree : ∀ c ∈ e.buffers, ∀ b ∈ moved, ¬ Path.Corresponds oldPath newPath b.path c.path)
    (hread : ∀ b ∈ moved, ∀ path, Path.Corresponds oldPath newPath b.path path →
      ∀ e text w', Editor.readFile path ⟨e, disk⟩ = .ok text w' → text = b.text)
    {w' : World Editor}
    (h : moveBuffers ⟨Editor.asHost, config, encoding⟩ oldPath newPath
      (moved.map fun b => (b.id, b.path)) ⟨e, disk⟩ = .ok () w') :
    w'.disk = disk ∧ ∃ heir, Editor.Carried oldPath newPath moved heir e w'.host := by
  induction moved generalizing e with
  | nil =>
    cases h
    exact ⟨rfl, _, Editor.carried_nil e⟩
  | cons b rest ih =>
    obtain ⟨hb, hunder⟩ := hmoved b List.mem_cons_self
    obtain ⟨hdistinctb, hdistinct⟩ := List.pairwise_cons.1 hdistinct
    obtain ⟨e', hs', hstep, hrest⟩ := carried_of_moveBuffers_cons hold hnew hs hb hunder
      (fun c hc => hfree c hc b List.mem_cons_self) (hread b List.mem_cons_self) h
    have hother : ∀ c ∈ rest, c ∈ e.buffers ∧ c ≠ b := by
      intro c hc
      refine ⟨(hmoved c (List.mem_cons_of_mem _ hc)).1, ?_⟩
      rintro rfl
      simpa [Path.same_refl] using hdistinctb c hc
    have hmoved' : ∀ c ∈ rest, c ∈ e'.buffers ∧ c.path.startsWith oldPath = true := by
      intro c hc
      obtain ⟨hc', hne⟩ := hother c hc
      exact ⟨(hstep.stays c hc' (by simpa using hne)).1, (hmoved c (List.mem_cons_of_mem _ hc)).2⟩
    -- the heir of the first buffer is in the way of none of the others
    have hfree' : ∀ c ∈ e'.buffers, ∀ b' ∈ rest,
        ¬ Path.Corresponds oldPath newPath b'.path c.path := by
      intro c hc b' hb' hcorr
      rcases hstep.origin c hc with ⟨hc, -⟩ | ⟨b'', hb'', -, -, hcorr'⟩
      · exact hfree c hc b' (List.mem_cons_of_mem _ hb') hcorr
      · obtain rfl := List.mem_singleton.1 hb''
        have hsame := hcorr'.same hcorr ((Path.startsWith_iff hold).1 hunder).1
          ((Path.startsWith_iff hold).1 (hmoved' b' hb').2).1
        simp [hdistinctb b' hb'] at hsame
    obtain ⟨hdisk, heir, hcarried⟩ := ih hs' hmoved' hdistinct hfree'
      (fun c hc => hread c (List.mem_cons_of_mem _ hc)) hrest
    refine ⟨hdisk, _, hstep.cons hcarried hother fun c hc => ?_⟩
    rw [if_pos rfl]
    exact hs.numbered.id_ne_next (hother c hc).1

/-! ## Buffers that are open already -/

/-- The first buffer of a path stays the first when another one is opened or given up. -/
theorem findBuffer?_handOver {e' : Editor} {b c d : Buffer} {path other : Path} {id : BufferId}
    (hfind : e.findBuffer? path = some d.id)
    (hload : Editor.loadBuffer other ⟨e, disk⟩ = .ok id ⟨e', disk⟩) (hne : d.id ≠ b.id) :
    (e'.handOver b c).findBuffer? path = some d.id := by
  obtain ⟨more, hmore⟩ : ∃ more, e'.buffers = e.buffers ++ more := by
    rcases Editor.cases_of_loadBuffer hload with ⟨-, heq⟩ | ⟨-, -, text, -, heq⟩
    · cases heq
      exact ⟨[], (List.append_nil _).symm⟩
    · exact ⟨_, congrArg (·.host.buffers) heq⟩
  obtain ⟨found, hfound, hid⟩ := Option.map_eq_some_iff.1 hfind
  obtain ⟨hsame, before, after, hbuffers, hbefore⟩ := List.find?_eq_some_iff_append.1 hfound
  rw [Editor.findBuffer?, Editor.handOver, hmore, hbuffers, Option.map_eq_some_iff]
  refine ⟨found, ?_, hid⟩
  rw [List.find?_eq_some_iff_append]
  refine ⟨hsame, before.filter fun other => other.id ≠ b.id,
    (after ++ more).filter fun other => other.id ≠ b.id, by simp [hid, hne], ?_⟩
  exact fun c hc => hbefore c (List.mem_of_mem_filter hc)

/-- A buffer that is open where another one goes to is taken as it is: it stays open, and the
windows of the other come to show it. -/
theorem reused_of_moveBuffers (hold : oldPath.isAbsolute = true) (hnew : newPath.isAbsolute = true)
    (hnames : oldPath.names ≠ newPath.names) (hs : e.Sound) {bs : List Buffer}
    (hbs : ∀ b ∈ bs, b ∈ e.buffers ∧ b.path.startsWith oldPath = true) (hnodup : bs.Nodup)
    {d : Buffer} (hd : d ∈ e.buffers) (hapart : d ∉ bs) {b : Buffer} {suffix : Path}
    (hsuffix : b.path.stripPrefix? oldPath = some suffix)
    (hfind : e.findBuffer? (newPath.join suffix) = some d.id)
    {w' : World Editor} (h : moveBuffers ⟨Editor.asHost, config, encoding⟩ oldPath newPath
      (bs.map fun b => (b.id, b.path)) ⟨e, disk⟩ = .ok () w') :
    d ∈ w'.host.buffers ∧ ∀ win ∈ e.windows, win.buffer = d.id ∨ b ∈ bs ∧ win.buffer = b.id →
      ∃ win' ∈ w'.host.windows, win'.id = win.id ∧ win'.buffer = d.id := by
  induction bs generalizing e with
  | nil =>
    cases h
    refine ⟨hd, fun win hwin hshown => ⟨win, hwin, rfl, ?_⟩⟩
    simpa using hshown
  | cons c rest ih =>
    obtain ⟨hc, hunder⟩ := hbs c List.mem_cons_self
    obtain ⟨hcrest, hnodup⟩ := List.nodup_cons.1 hnodup
    obtain ⟨hdc, hdrest⟩ := List.ne_and_not_mem_of_not_mem_cons hapart
    obtain ⟨suffix', hsuffix'⟩ := Path.exists_stripPrefix? hold hunder
    have hmoves : c.path.same (newPath.join suffix') = false := by
      have hpath := Path.corresponds_join hold hnew hunder hsuffix'
      by_contra hsame
      obtain ⟨-, rest', hrest', hnames'⟩ := hpath.of_same (Bool.eq_true_of_not_eq_false hsame)
      exact hnames (List.append_cancel_right (hrest'.symm.trans hnames'))
    obtain ⟨d', e', hload, -, -, hs', hrest⟩ :=
      exists_of_moveBuffers_cons hs hc hsuffix' hmoves h
    have hkept : ∀ b ∈ e.buffers, b ≠ c → b ∈ (e'.handOver c d').buffers := by
      intro b hb hne
      obtain ⟨-, -, hstays, -⟩ := Editor.exists_of_loadBuffer hs hload
      exact List.mem_filter.2 ⟨hstays b hb, by
        simpa using fun hid => hne (hs.numbered.eq_of_id hb hc hid)⟩
    have hbs' : ∀ b ∈ rest, b ∈ (e'.handOver c d').buffers ∧ b.path.startsWith oldPath = true := by
      intro b hb
      obtain ⟨hmem, hunder⟩ := hbs b (List.mem_cons_of_mem _ hb)
      exact ⟨hkept b hmem (ne_of_mem_of_not_mem hb hcrest), hunder⟩
    have hfind' := findBuffer?_handOver (b := c) (c := d') hfind hload fun hid =>
      hdc (hs.numbered.eq_of_id hd hc hid)
    obtain ⟨hd', hnext⟩ := ih hs' hbs' hnodup (hkept d hd hdc) hdrest hfind' hrest
    refine ⟨hd', fun win hwin hshown => ?_⟩
    have hwin' : win ∈ e'.windows := Editor.windows_of_loadBuffer hload ▸ hwin
    rcases hshown with hshown | ⟨hmem, hshown⟩
    · have hne : win.buffer ≠ c.id := fun hid =>
        hdc (hs.numbered.eq_of_id hd hc (hshown.symm.trans hid))
      exact hnext _ (Editor.mem_handOver_of_ne hwin' hne) (.inl hshown)
    · by_cases hbc : b = c
      · subst hbc
        obtain rfl : suffix = suffix' := Option.some.inj (hsuffix.symm.trans hsuffix')
        have hid : d'.id = d.id := by
          rcases Editor.cases_of_loadBuffer hload with ⟨hfound, -⟩ | ⟨hnone, -⟩
          · exact Option.some.inj (hfound.symm.trans hfind)
          · cases hnone.symm.trans hfind
        exact hnext { win with buffer := d'.id, cursor := d'.text.closest win.cursor }
          (Editor.mem_handOver hwin' hshown) (.inl hid)
      · have hb : b ∈ rest := List.mem_of_ne_of_mem hbc hmem
        have hne : win.buffer ≠ c.id := fun hid => hbc (hs.numbered.eq_of_id
          (hbs b hmem).1 hc (hshown.symm.trans hid))
        exact hnext _ (Editor.mem_handOver_of_ne hwin' hne) (.inr ⟨hb, hshown⟩)

end Applier

end WorkspaceEditing
