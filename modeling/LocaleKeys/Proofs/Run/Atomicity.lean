import LocaleKeys.Proofs.Run.Failure

/-!
# What a failed run leaves behind

Each artifact is put into its place at once, but two artifacts are not. A run that fails before its
last stage, or at its first artifact, leaves all entries as they are. If the second artifact cannot
be put into its place, the first one stays behind (`failed_run_leaves_beginning`), so that a failed
run in the mode with two artifacts can change the output directory
(`failed_run_changes_output`).
-/

namespace LocaleKeys

theorem Run.resultOf?_ofStore_eq_some (s : Settings) (inputFile : Text) (f : StoreFault)
    (r : RunResult) (h : resultOf? s inputFile (.ofStore f) = some r) :
    ∃ e, f = .system e ∧ r.errorKind = ProblemKind.generation.name := by
  cases f with
  | system e =>
      rw [← Option.some.inj h]
      exact ⟨e, rfl, rfl⟩
  | name f => cases f <;> exact nomatch h

theorem Artifact.Hindrance.exists_system {host : Host} {directory : Text} {skip : Bool}
    {store : Store} {a : Artifact} {f : Failure} (h : Hindrance host directory skip store a f)
    (s : Settings) (inputFile : Text) (r : RunResult)
    (hr : Run.resultOf? s inputFile f = some r) :
    ∃ e, f = .system e ∧ r.errorKind = ProblemKind.generation.name := by
  cases h with
  | unencoded fault hencode => cases hr
  | unread data f hencode hskip hread =>
      obtain ⟨e, rfl, hkind⟩ := Run.resultOf?_ofStore_eq_some s inputFile f r hr
      exact ⟨e, rfl, hkind⟩
  | refused data f hencode hreplace =>
      obtain ⟨e, rfl, hkind⟩ := Run.resultOf?_ofStore_eq_some s inputFile f r hr
      exact ⟨e, rfl, hkind⟩

namespace Run

variable (host : Host) (s : Settings) (p : Preparation) (g : Generated)

/-- Two artifacts are made in the mode with two of them only, so that what is written of them before
one fails is nothing, or the first one of these two. -/
theorem beginning_cases (store : Store) (h : generated host s store = .ok g)
    (done rest : List Artifact) (a : Artifact) (hartifacts : g.artifacts = done ++ a :: rest) :
    done = [] ∨ s.outputMode = OutputMode.dual.name ∧ rest = [] ∧
      done.map Artifact.name = [Artifact.typesName] ∧ a.name = Artifact.keysName := by
  obtain ⟨mode, t, hmode, -, -⟩ := exists_tree_of_generated host s store g h
  have hnames := map_name_of_generated host s store g h
  rw [hmode, OutputMode.expectedNames_name, hartifacts, List.map_append, List.map_cons] at hnames
  cases mode with
  | single =>
      obtain ⟨hdone, -⟩ := List.append_eq_singleton_iff.1 hnames |>.resolve_right fun h =>
        nomatch h.2
      exact .inl (List.map_eq_nil_iff.1 hdone)
  | dual =>
      cases done with
      | nil => exact .inl rfl
      | cons b done =>
          obtain ⟨hb, hnames⟩ := List.cons.inj hnames
          obtain ⟨hdone, hrest⟩ := List.append_eq_singleton_iff.1 hnames |>.resolve_right fun h =>
            nomatch h.2
          obtain ⟨ha, hrest⟩ := List.cons.inj hrest
          refine .inr ⟨hmode, List.map_eq_nil_iff.1 hrest, ?_, ha⟩
          rw [List.map_cons, hb, hdone]

theorem resultOf?_eq_none_of_verdict (o : ToolOutcome) (e : Failure) (h : o.verdict = .error e)
    (inputFile : Text) : resultOf? s inputFile e = none := by
  rcases (ToolOutcome.verdict_eq_error_iff o e).1 h with ⟨-, rfl⟩ | ⟨f, -, rfl⟩ <;> rfl

theorem formatWith_ne_reported (paths : List Text) (w w' : Workspace) (e : Failure)
    (inputFile : Text) (r : RunResult) (hresult : resultOf? s inputFile e = some r) :
    (formatWith host s paths).runOn w ≠ (.error e, w') := by
  intro h
  obtain ⟨-, tool, -, hverdict⟩ := formatWith_eq_error host s paths w w' e h
  rw [resultOf?_eq_none_of_verdict s _ e hverdict inputFile] at hresult
  cases hresult

/-- A last stage that writes and fails with a result leaves a beginning of the artifacts in their
places, and the artifact that follows is refused by the file store. -/
theorem beginning_of_emit_eq_error (hhere : Path.isAbsolute host.here = true)
    (hdir : s.outputPath ≠ []) (store : Store) (hg : generated host s store = .ok g)
    (w w' : Workspace) (f : Failure) (inputFile : Text) (r : RunResult)
    (hlast : (emit host s p g).runOn w = (.error f, w'))
    (hresult : resultOf? s inputFile f = some r) :
    ∃ done a rest e, g.artifacts = done ++ a :: rest ∧
      Artifact.Emitted host.umask .keep host.here s.outputPath done w.store w'.store ∧
      r.errorKind = ProblemKind.generation.name ∧
      Artifact.Hindrance host s.outputPath (!s.format) w'.store a (.system e) := by
  have hentries := isEntryName_of_generated host s store g hg
  have hwrite := (emit_eq_error_cases host s p g w w' f hlast).resolve_right
    fun ⟨paths, w₁, hformat⟩ => formatWith_ne_reported host s paths w₁ w' f inputFile r hresult
      hformat
  obtain ⟨done, a, rest, hartifacts, hwritten, hwhy⟩ := Artifact.stopped_of_writeAll_eq_error host
    s.outputPath (!s.format) hhere hdir g.artifacts w w' f hentries hwrite
  obtain ⟨e, rfl, hkind⟩ := hwhy.exists_system s inputFile r hresult
  have hnodup := nodup_map_name_of_generated host s store g hg
  rw [hartifacts, List.map_append] at hnodup
  have hemitted := hwritten.emitted hdir
    (fun b hb => hentries b (hartifacts ▸ List.mem_append_left _ hb)) (List.nodup_append.1 hnodup).1
  exact ⟨done, a, rest, e, hartifacts, hemitted, hkind, hwhy⟩

/-- Whether writing has stopped between two artifacts: the first one is `types`, and the second one
is hindered by a refusal of the system. -/
structure StoppedBetween (w w' : Workspace) (types : Artifact) : Prop where
  outputMode_eq : s.outputMode = OutputMode.dual.name
  name_eq : types.name = Artifact.typesName
  exists_keys : ∃ g keys e, ((generate host s).runOn w).1 = .ok g ∧
    g.artifacts = [types, keys] ∧ keys.name = Artifact.keysName ∧
    Artifact.Hindrance host s.outputPath (!s.format) w'.store keys (.system e)

/-- A run that writes and fails leaves a beginning of the artifacts in their places, and all other
entries as they are. It leaves all entries as they are exactly if what it has written was there
already. That is so if it has written nothing; otherwise it has stopped between two artifacts. -/
theorem failed_run_leaves_beginning (hhere : Path.isAbsolute host.here = true) (w w' : Workspace)
    (r : RunResult) (hrun : (run host { s with noEmit := false }).runOn w = (.ok r, w'))
    (hfailed : r.ok = false) :
    ∃ done, Artifact.Emitted host.umask .keep host.here s.outputPath done w.store w'.store ∧
      ((∀ l, w'.store.get? l = w.store.get? l) ↔
        ∀ a ∈ done, a.IsHeld .keep host.here s.outputPath w.store) ∧
      (done = [] ∨ ∃ types, done = [types] ∧ StoppedBetween host s w w' types ∧
        r.errorKind = ProblemKind.generation.name) := by
  have hcourse := course_run host { s with noEmit := false } w
  rw [hrun] at hcourse
  cases hcourse with
  | unread f w₁ hread hstore hending =>
      obtain ⟨w₂, hstore₂, hconclude⟩ := exists_runOn_conclude { s with noEmit := false } [] f w₁
      have hsame : w'.store = w.store := by
        rcases hconclude with ⟨r', -, h⟩ | ⟨-, h⟩ <;>
          rw [(Prod.mk.inj (hending.trans h)).2, hstore₂, hstore]
      refine ⟨[], ⟨fun a ha => (nomatch ha), fun l _ => by rw [hsame]⟩, ?_, .inl rfl⟩
      exact iff_of_true (fun l => by rw [hsame]) fun a ha => nomatch ha
  | finished p g r' w₁ w₂ hread hstore hlast hending =>
      obtain ⟨hr, -⟩ := Prod.mk.inj hending
      rw [Except.ok.inj hr, ok_of_emit_eq_ok host { s with noEmit := false } p g w₁ w₂ r' hlast]
        at hfailed
      exact nomatch hfailed
  | unfinished p g f w₁ w₂ hread hstore hlast hending =>
      obtain ⟨hp, hg⟩ := (readStages_eq_ok_iff _ _ _ _ _).1 hread
      obtain ⟨w₃, hstore₃, hconclude⟩ :=
        exists_runOn_conclude { s with noEmit := false } g.inputFile f w₂
      obtain ⟨r', hresult, hconclude⟩ := hconclude.resolve_right fun h =>
        nomatch (Prod.mk.inj (hending.trans h.2)).1
      obtain ⟨hr, rfl⟩ := Prod.mk.inj (hending.trans hconclude)
      obtain rfl := Except.ok.inj hr
      obtain ⟨done, a, rest, e, hartifacts, hemitted, hkind, hwhy⟩ :=
        beginning_of_emit_eq_error host { s with noEmit := false } p g hhere
          (outputPath_ne_nil_of_prepared _ _ _ p hp) w.store hg w₁ w₂ f g.inputFile r hlast hresult
      rw [hstore, ← hstore₃] at hemitted
      rw [← hstore₃] at hwhy
      refine ⟨done, hemitted, hemitted.forall_get?_eq_iff, ?_⟩
      rcases beginning_cases host { s with noEmit := false } g w.store hg done rest a hartifacts
        with hdone | ⟨hmode, rfl, hdone, ha⟩
      · exact .inl hdone
      · obtain ⟨types, rfl, htypes⟩ := List.map_eq_singleton_iff.1 hdone
        have hgenerate := ((reads_generate host s).fst_runOn _ _ w).trans hg
        exact .inr ⟨types, rfl,
          ⟨hmode, htypes, g, a, e, hgenerate, hartifacts, ha, hwhy⟩, hkind⟩

/-- A workspace in which a directory stands where the constant belongs. -/
def blockedWorkspace : Workspace :=
  { nestedWorkspace with
    store := nestedWorkspace.store.set ["out", Artifact.keysName] (.directory 0o755) }

/-- A failed run can change the output directory: the type is there after it, and was not before. -/
theorem failed_run_changes_output :
    ∃ r w', (run bareHost { bareSettings with noEmit := false }).runOn blockedWorkspace =
        (.ok r, w') ∧ r.ok = false ∧
      blockedWorkspace.store.get? ["out", Artifact.typesName] = none ∧
      (w'.store.get? ["out", Artifact.typesName]).isSome = true := by
  obtain ⟨r, hrun, hfailed⟩ := Action.exists_runOn_eq_of_map_toOption RunResult.ok
    (run bareHost { bareSettings with noEmit := false }) blockedWorkspace false (by decide +kernel)
  exact ⟨r, _, hrun, hfailed, by decide +kernel, by decide +kernel⟩

theorem failed_run_leaves_beginning_blocked :
    ∃ r w' types, (run bareHost { bareSettings with noEmit := false }).runOn blockedWorkspace =
        (.ok r, w') ∧
      Artifact.Emitted bareHost.umask .keep bareHost.here bareSettings.outputPath [types]
        blockedWorkspace.store
        w'.store ∧
      StoppedBetween bareHost bareSettings blockedWorkspace w' types := by
  obtain ⟨r, hrun, hfailed⟩ := Action.exists_runOn_eq_of_map_toOption RunResult.ok
    (run bareHost { bareSettings with noEmit := false }) blockedWorkspace false (by decide +kernel)
  obtain ⟨done, hemitted, hiff, hcases⟩ :=
    failed_run_leaves_beginning bareHost bareSettings rfl blockedWorkspace _ r hrun hfailed
  rcases hcases with rfl | ⟨types, rfl, hstopped, -⟩
  · have hsame := hiff.2 (fun a ha => nomatch ha) ["out", Artifact.typesName]
    exact absurd hsame (by decide +kernel)
  · exact ⟨r, _, types, hrun, hemitted, hstopped⟩

end Run

end LocaleKeys
