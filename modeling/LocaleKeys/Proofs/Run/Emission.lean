import LocaleKeys.Proofs.Artifact.Comparison
import LocaleKeys.Proofs.Document.Selection
import LocaleKeys.Proofs.Run.Formatting
import LocaleKeys.Proofs.Run.Stages

/-!
# What the last stage of a run does

Whether it writes or compares, the last stage of a run is determined by the rendered artifacts and
by one formatting. Writing leaves the formatted artifacts behind (`emitted_of_emit_eq_ok`), and
succeeds if each artifact is there already or can be written (`exists_runOn_emit`). Comparing tells
whether the committed files hold the formatted artifacts, and changes no file
(`exists_runOn_comparing`).
-/

namespace LocaleKeys

namespace OutputMode

theorem ofName?_eq_some (name : Text) (mode : OutputMode) (h : ofName? name = some mode) :
    name = mode.name := by
  have hname := List.find?_some h
  exact (of_decide_eq_true hname).symm

theorem expectedNames_name (mode : OutputMode) : expectedNames mode.name = mode.artifactNames := by
  rw [expectedNames, ofName?_name]
  rfl

end OutputMode

theorem Store.locate_absolute_join_iff (s : Store) (here dir name : Text) (l : Location)
    (hhere : Path.isAbsolute here = true) (hdir : dir ≠ []) (hname : Path.IsEntryName name)
    (hplace : s.HasTemporaryPlace here (Path.join dir name))
    (hl : s.locate here (Path.join dir name) = .ok l) (k : Location) :
    s.locate here (Path.absolute here (Path.join dir name)) = .ok k ↔
      s.locate here (Path.join dir name) = .ok k := by
  rw [hl, s.locate_absolute_join here dir name l hhere hdir hname hplace hl]

namespace Run

section Rendering

variable (host : Host) (s : Settings) (store : Store) (g : Generated)
variable (h : generated host s store = .ok g)
include h

theorem exists_tree_of_generated :
    ∃ (mode : OutputMode) (t : KeyTree Json), s.outputMode = mode.name ∧
      Document.loaded host s.inputPath s.excludeKey store = .ok (g.inputFile, t) ∧
      g.artifacts = Rendering.artifactsOfTree mode s.disableEslintQuotes t := by
  obtain ⟨⟨path, t⟩, hloaded, h⟩ := exists_of_bind_eq_ok _ _ _ h
  obtain ⟨artifacts, hrendered, h⟩ := exists_of_bind_eq_ok _ _ _ h
  obtain rfl := Except.ok.inj h
  have hrendered := (mapError_eq_ok_iff _ _ _).1 hrendered
  rw [Rendering.ofTree, Rendering.artifacts] at hrendered
  cases hmode : OutputMode.ofName? s.outputMode with
  | none =>
      rw [hmode] at hrendered
      cases hrendered
  | some mode =>
      rw [hmode] at hrendered
      obtain rfl := Except.ok.inj hrendered
      exact ⟨mode, t, OutputMode.ofName?_eq_some _ _ hmode, hloaded,
        Rendering.artifactsOf_eq_artifactsOfTree mode s.disableEslintQuotes t⟩

theorem map_name_of_generated :
    g.artifacts.map Artifact.name = OutputMode.expectedNames s.outputMode := by
  obtain ⟨mode, t, hmode, -, hartifacts⟩ := exists_tree_of_generated host s store g h
  rw [hartifacts, hmode, Rendering.map_name_artifactsOfTree, OutputMode.expectedNames_name]

theorem nodup_map_name_of_generated : (g.artifacts.map Artifact.name).Nodup := by
  obtain ⟨mode, t, -, -, hartifacts⟩ := exists_tree_of_generated host s store g h
  rw [hartifacts]
  exact Rendering.nodup_map_name_artifactsOfTree mode _ t

theorem isStageable_of_generated : ∀ a ∈ g.artifacts, Verification.IsStageable a.name := by
  obtain ⟨mode, t, -, -, hartifacts⟩ := exists_tree_of_generated host s store g h
  rw [hartifacts]
  exact Rendering.isStageable_artifactsOfTree mode _ t

theorem isPlain_of_generated : ∀ a ∈ g.artifacts, Artifact.IsPlain a.name :=
  fun a ha => (isStageable_of_generated host s store g h a ha).toIsPlain

theorem isEntryName_of_generated : ∀ a ∈ g.artifacts, Path.IsEntryName a.name :=
  fun a ha => (isPlain_of_generated host s store g h a ha).isEntryName

end Rendering

theorem outputPath_ne_nil_of_isDirectory (here path : Text) (store : Store)
    (h : store.isDirectory here path = true) : path ≠ [] := by
  obtain ⟨d, hd, -⟩ := (Store.isDirectory_iff _ _ _).1 h
  exact ((Store.locate_eq_ok_iff _ _ _ _).1 hd).2.1

theorem outputPath_ne_nil_of_prepared (host : Host) (s : Settings) (store : Store)
    (p : Preparation) (hp : prepared host s store = .ok p) : s.outputPath ≠ [] :=
  outputPath_ne_nil_of_isDirectory _ _ _ ((exists_prepared_iff host s store).1 ⟨p, hp⟩).2

section LastStage

variable (host : Host) (s : Settings) (p : Preparation) (g : Generated) (f : Formatting)
variable (hformats : FormatsBy host s f)

section Writing

variable (hhere : Path.isAbsolute host.here = true) (hdir : s.outputPath ≠ [])
variable (hnames : ∀ a ∈ g.artifacts, Artifact.IsPlain a.name)
variable (hnodup : (g.artifacts.map Artifact.name).Nodup)
include hformats hhere hdir hnames hnodup

theorem exists_runOn_formatWith_of_written (w w₁ : Workspace)
    (hwritten : Artifact.Written host.umask host.here s.outputPath g.artifacts w.store w₁.store)
    (hplace : ∀ a ∈ g.artifacts,
      w.store.HasTemporaryPlace host.here (Path.join s.outputPath a.name)) :
    ∃ b w₂, (formatWith host s (g.artifacts.map fun a =>
        Path.absolute host.here (Path.join s.outputPath a.name))).runOn w₁ = (.ok b, w₂) ∧
      Artifact.Emitted host.umask f host.here s.outputPath g.artifacts w.store w₂.store := by
  have hentries := fun a ha => (hnames a ha).isEntryName
  have hhidden : ∀ n ∈ g.artifacts.map Artifact.name, n.head? ≠ some (.scalar '.') := by
    rw [List.forall_mem_map]
    exact fun a ha => (hnames a ha).head?_ne
  have hkeep := hwritten.emitted hdir hentries hnodup
  have hagree := hkeep.agreesBut hdir hentries
  -- A temporary file has stood beside each artifact, so that its absolute path is short enough.
  have hpath : ∀ a ∈ g.artifacts, ∀ l,
      w₁.store.locate host.here (Path.absolute host.here (Path.join s.outputPath a.name)) = .ok l ↔
        w₁.store.locate host.here (Path.join s.outputPath a.name) = .ok l := by
    intro a ha
    obtain ⟨parent, -, -, hl, -⟩ := hkeep.exists_get? a ha
    refine w₁.store.locate_absolute_join_iff host.here _ a.name _ hhere hdir (hentries a ha) ?_
      ((hagree.locate_iff _ _ _).2 hl)
    exact (hplace a ha).congr _ _ _ _ _ _ hhere hdir (hentries a ha).slash_not_mem hhidden hagree
  obtain ⟨b, w₂, hrun, hformatted⟩ := hformats.exists_runOn _ w₁
    (hkeep.leadToFiles hdir hentries hnodup _ hpath)
  refine ⟨b, w₂, hrun, hkeep.of_formatted hdir hentries _ (fun a ha => ?_) hpath hformatted⟩
  exact Path.base_absolute_join host.here s.outputPath a.name hhere hdir (hentries a ha)

theorem emitted_of_emit_eq_ok (w w' : Workspace) (r : RunResult)
    (h : (emit host s p g).runOn w = (.ok r, w')) :
    r.ok = true ∧ r.inputFile = g.inputFile ∧
      Artifact.Emitted host.umask f host.here s.outputPath g.artifacts w.store w'.store ∧
      (s.format = true → ∀ a ∈ g.artifacts,
        w.store.HasTemporaryPlace host.here (Path.join s.outputPath a.name)) := by
  have hentries := fun a ha => (hnames a ha).isEntryName
  obtain ⟨paths, w₁, hwrite, h⟩ := Action.exists_of_runOn_bind_eq_ok _ _ _ _ _ h
  obtain ⟨formatted, w₂, hformat, h⟩ := Action.exists_of_runOn_bind_eq_ok _ _ _ _ _ h
  rw [Action.runOn_bind_of_ok _ _ w₂ _ _ (Action.runOn_record _ _ _ w₂)] at h
  obtain ⟨hr, rfl⟩ := Prod.mk.inj h
  obtain rfl := Except.ok.inj hr
  obtain ⟨rfl, hwritten⟩ := Artifact.written_of_writeAll_eq_ok host s.outputPath (!s.format) hhere
    hdir g.artifacts paths w w₁ hentries hwrite
  refine ⟨rfl, rfl, ?_⟩
  cases hasked : s.format with
  | false =>
      rw [runOn_formatWith_of_not_format host s hasked] at hformat
      obtain ⟨-, rfl⟩ := Prod.mk.inj hformat
      rw [hformats.eq_keep hasked]
      exact ⟨hwritten.emitted hdir hentries hnodup, fun hfalse => nomatch hfalse⟩
  | true =>
      rw [hasked, Bool.not_true] at hwrite
      have hplace := Artifact.hasTemporaryPlace_of_writeAll_eq_ok host s.outputPath hhere hdir
        g.artifacts _ w w₁ hnames hwrite
      obtain ⟨b, w₂', hformat', hemitted⟩ := exists_runOn_formatWith_of_written host s g f hformats
        hhere hdir hnames hnodup w w₁ hwritten hplace
      obtain rfl := (Prod.mk.inj (hformat.symm.trans hformat')).2
      exact ⟨hemitted, fun _ => hplace⟩

end Writing

theorem exists_runOn_verify (w w₁ : Workspace) (v : Verification)
    (h : (Verification.verify host s.outputPath
      (fun paths => do let _ ← formatWith host s paths) g.artifacts).runOn w = (.ok v, w₁)) :
    ∃ r w₂, (verify host s p g).runOn w = (.ok r, w₂) ∧ w₂.store = w₁.store ∧ r.ok = v.ok ∧
      r.verification = some v ∧ (v.ok = false → r.errorKind = ProblemKind.driftMismatch.name) := by
  rw [verify, Action.runOn_bind_of_ok _ _ w w₁ v h]
  cases hv : v.ok with
  | true =>
      rw [if_pos rfl, Action.runOn_bind_of_ok _ _ w₁ _ _ (Action.runOn_record _ _ _ w₁)]
      exact ⟨_, _, rfl, rfl, rfl, rfl, fun hok => nomatch hok⟩
  | false =>
      rw [if_neg (by simp), Action.runOn_bind_of_ok _ _ w₁ _ _ (Action.runOn_record _ _ _ w₁)]
      exact ⟨_, _, rfl, rfl, rfl, rfl, fun _ => rfl⟩

end LastStage

section WholeRun

variable (host : Host) (s : Settings) (f : Formatting) (hformats : FormatsBy host s f)
variable (hhere : Path.isAbsolute host.here = true)
include hformats hhere

/-- A run that writes leaves the formatted artifacts that it has rendered behind. -/
theorem exists_of_emitting_run (hemit : s.noEmit = false) (w w' : Workspace) (r : RunResult)
    (hrun : (run host s).runOn w = (.ok r, w')) (hok : r.ok = true) :
    ∃ p g, prepared host s w.store = .ok p ∧ generated host s w.store = .ok g ∧
      r.inputFile = g.inputFile ∧
      Artifact.Emitted host.umask f host.here s.outputPath g.artifacts w.store w'.store ∧
      (s.format = true → ∀ a ∈ g.artifacts,
        w.store.HasTemporaryPlace host.here (Path.join s.outputPath a.name)) := by
  obtain ⟨p, g, w₁, hp, hg, hstore, hlast⟩ := exists_of_run_eq_ok host s w w' r hrun hok
  rw [lastStage, hemit, if_neg Bool.false_ne_true] at hlast
  obtain ⟨-, hfile, hemitted⟩ := emitted_of_emit_eq_ok host s p g f hformats hhere
    (outputPath_ne_nil_of_prepared host s w.store p hp) (isPlain_of_generated host s w.store g hg)
    (nodup_map_name_of_generated host s w.store g hg) w₁ w' r hlast
  rw [hstore] at hemitted
  exact ⟨p, g, hp, hg, hfile, hemitted⟩

/-- A run that compares tells whether the committed files hold the formatted artifacts, and leaves
no trace in the files. -/
theorem exists_runOn_comparing (hemit : s.noEmit = true) (hpermissive : host.Permissive)
    (w : Workspace) (hs : w.store.IsTree) (hstage : Verification.CanStage w.store)
    (p : Preparation) (g : Generated) (hp : prepared host s w.store = .ok p)
    (hg : generated host s w.store = .ok g)
    (hencode : ∀ a ∈ g.artifacts, ∃ data, a.encode = .ok data) :
    ∃ r w' v, (run host s).runOn w = (.ok r, w') ∧
      v = Verification.ofStandings s.outputPath (Verification.standings f
        (fun name => w.store.content? host.here (Path.join s.outputPath name)) g.artifacts) ∧
      r.ok = v.ok ∧ r.verification = some v ∧
      (v.ok = false → r.errorKind = ProblemKind.driftMismatch.name) ∧
      ∀ l, w'.store.get? l = w.store.get? l := by
  obtain ⟨-, houtput⟩ := (exists_prepared_iff host s w.store).1 ⟨p, hp⟩
  obtain ⟨w₁, hstore, hrun⟩ := exists_runOn_run host s w p g hp hg
  rw [lastStage, hemit, if_pos rfl] at hrun
  rw [← hstore] at hs hstage houtput
  obtain ⟨w₂, hverify, hsame⟩ := Verification.exists_runOn_verify host s.outputPath f
    (fun paths => do let _ ← formatWith host s paths) (hformats.formatsFiles host s f) g.artifacts
    (nodup_map_name_of_generated host s w.store g hg) hpermissive w₁ hhere hs hstage houtput
    fun a ha => ⟨isStageable_of_generated host s w.store g hg a ha, hencode a ha⟩
  obtain ⟨r, w₃, hresult, hstore₃, hok, hverification, hkind⟩ :=
    exists_runOn_verify host s p g w₁ w₂ _ hverify
  rw [hstore] at hok hverification hkind hsame
  refine ⟨r, w₃, _, hrun r w₃ hresult, rfl, hok, hverification, hkind, fun l => ?_⟩
  rw [hstore₃, hsame l]

theorem isTree_of_emitting_run (hemit : s.noEmit = false) (w w' : Workspace) (r : RunResult)
    (hrun : (run host s).runOn w = (.ok r, w')) (hok : r.ok = true) (hs : w.store.IsTree) :
    w'.store.IsTree := by
  obtain ⟨p, g, hp, hg, -, hemitted, -⟩ :=
    exists_of_emitting_run host s f hformats hhere hemit w w' r hrun hok
  exact hemitted.isTree (outputPath_ne_nil_of_prepared host s w.store p hp)
    (isEntryName_of_generated host s w.store g hg) hs

end WholeRun

theorem isTree_nestedWorkspace : nestedWorkspace.store.IsTree := by
  have hempty : Store.empty.IsTree := by
    intro l name e h
    rw [Store.get?_of_ne_nil _ _ (by simp)] at h
    exact nomatch h
  have htmp := Store.isTree_set_directory _ [] "tmp" 0o755 hempty (by decide)
    (Store.isDirectoryAt_nil _)
  have hin := Store.isTree_set_directory _ [] "in" 0o755 htmp (by decide)
    (Store.isDirectoryAt_nil _)
  have hout := Store.isTree_set_directory _ [] "out" 0o755 hin (by decide)
    (Store.isDirectoryAt_nil _)
  refine Store.isTree_set_file _ ["in"] "en.json" _ 0o644 hout (by decide) ?_ ?_
  · exact ⟨0o755, by decide⟩
  · rintro ⟨m, hm⟩
    exact nomatch hm

def markingHost : Host :=
  { bareHost with
    tools := [(OptionName.defaultFormatter,
      Tool.appending "/usr/bin/prettier" "// formatted\n" 0o022 (.finished 0 [] []))] }

def markingSettings : Settings := { bareSettings with format := true }

theorem formatsInPlace_markingHost (tool : Tool)
    (h : Formatter.find markingHost (some markingSettings.formatter) = .ok tool) :
    tool.FormatsInPlace markingHost.here
      (Tool.appendingTo ((Utf8.encode "// formatted\n").toOption.getD [])) := by
  have hfind : Formatter.find markingHost (some markingSettings.formatter) =
      .ok (Tool.appending "/usr/bin/prettier" "// formatted\n" 0o022 (.finished 0 [] [])) := rfl
  obtain rfl := Except.ok.inj (hfind.symm.trans h)
  exact Tool.formatsInPlace_appending _ _ _ _ _ (by decide) ⟨true, rfl⟩

end Run

end LocaleKeys
