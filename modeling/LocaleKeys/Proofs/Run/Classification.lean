import LocaleKeys.Proofs.Run.Atomicity
import LocaleKeys.Proofs.Run.Defects
import LocaleKeys.Proofs.Run.Isolation

/-!
# The kinds of results

The kind of error that a run reports is that of the first defect that is there, and there is none
exactly if no defect is (`results_are_classified`). So however many things are wrong at once, the
files and the settings alone decide what is reported, in the order of the stages. The exit code
follows the kind.

What the system refuses is reported in the same way whether an artifact is stored or read: a
committed file that may not be read is no drift. And a document at a path that is too long is no
document (`refused_and_unreachable_files_are_reported`).
-/

namespace LocaleKeys

/-- The name that a result gives a kind of error; that of no error is empty. -/
def kindName (kind? : Option ProblemKind) : Text := (kind?.map ProblemKind.name).getD []

def kindOf (name : Text) : Option ProblemKind :=
  [.generation, .missingConfiguration, .directoryNotFound, .noInputFound, .malformedInput,
    .invalidKeyName, .invalidOutputMode, .driftMismatch, .externalToolMissing].find? (·.name = name)

theorem kindOf_kindName (kind? : Option ProblemKind) : kindOf (kindName kind?) = kind? := by
  cases kind? with
  | none => decide
  | some kind => cases kind <;> decide

theorem kindName_injective : Function.Injective kindName :=
  Function.LeftInverse.injective kindOf_kindName

theorem Problem.kind_ne_driftMismatch (p : Problem) : p.kind ≠ .driftMismatch := by
  cases p <;> exact fun h => nomatch h

/-- Whether a result reports an error of a kind, or none. -/
structure RunResult.Reports (r : RunResult) (kind? : Option ProblemKind) : Prop where
  errorKind_eq : r.errorKind = kindName kind?
  ok_iff : r.ok = true ↔ kind? = none
  driftDetected_iff : r.driftDetected = true ↔ kind? = some .driftMismatch

namespace Run

variable (host : Host) (s : Settings)

theorem reports_failed (inputFile : Text) (kind : ProblemKind) (error : Text)
    (hkind : kind ≠ .driftMismatch) :
    (RunResult.failed s inputFile kind error).Reports (some kind) where
  errorKind_eq := rfl
  ok_iff := iff_of_false (fun h => nomatch h) (fun h => nomatch h)
  driftDetected_iff := iff_of_false (fun h => nomatch h) fun h => hkind (Option.some.inj h)

theorem exists_reports_of_verify_eq_ok (p : Preparation) (g : Generated) (w w' : Workspace)
    (r : RunResult) (h : (verify host s p g).runOn w = (.ok r, w')) :
    ∃ v w₁, (Verification.verify host s.outputPath
        (fun paths => do let _ ← formatWith host s paths) g.artifacts).runOn w = (.ok v, w₁) ∧
      r.Reports (if v.ok then none else some .driftMismatch) := by
  obtain ⟨v, w₁, hverify, h⟩ := Action.exists_of_runOn_bind_eq_ok _ _ _ _ _ h
  refine ⟨v, w₁, hverify, ?_⟩
  cases hv : v.ok with
  | true =>
      rw [hv, if_pos rfl, Action.runOn_bind_of_ok _ _ w₁ _ _ (Action.runOn_record _ _ _ w₁)] at h
      obtain rfl := Except.ok.inj (Prod.mk.inj h).1
      refine ⟨rfl, iff_of_true rfl rfl,
        iff_of_false (fun hdrift => ?_) (fun hsome => nomatch hsome)⟩
      rw [RunResult.driftDetected] at hdrift
      simp only [hv] at hdrift
      exact nomatch hdrift
  | false =>
      rw [hv, if_neg Bool.false_ne_true,
        Action.runOn_bind_of_ok _ _ w₁ _ _ (Action.runOn_record _ _ _ w₁)] at h
      obtain rfl := Except.ok.inj (Prod.mk.inj h).1
      refine ⟨rfl, iff_of_false (fun hok => nomatch hok) (fun hnone => nomatch hnone),
        iff_of_true ?_ rfl⟩
      rw [RunResult.driftDetected]
      simp only [hv]
      rfl

theorem exists_problem_of_read_eq_error (store : Store) (path : Text) (f : Failure)
    (inputFile : Text) (r : RunResult) (h : Document.read host path store = .error f)
    (hr : resultOf? s inputFile f = some r) : ∃ p, f = .problem p := by
  unfold Document.read at h
  split at h
  · next bytes hcontent =>
      refine (Document.parse_eq_error_cases path bytes f h).resolve_right ?_
      rintro ⟨n, rfl⟩
      exact nomatch hr
  · exact ⟨_, (Except.error.inj h).symm⟩
  · next fault hne hcontent =>
      obtain rfl := Except.error.inj h
      obtain ⟨e, rfl, -⟩ := resultOf?_ofStore_eq_some s inputFile fault r hr
      exact absurd rfl (hne e)

theorem exists_problem_of_readStages_eq_error (store : Store) (f : Failure) (inputFile : Text)
    (r : RunResult) (h : readStages host s store = .error f)
    (hr : resultOf? s inputFile f = some r) : ∃ p, f = .problem p := by
  rcases bind_eq_error_cases _ _ _ h with h | ⟨p, -, h⟩
  · unfold prepared at h
    split at h
    · exact ⟨_, (Except.error.inj h).symm⟩
    · split at h
      · exact ⟨_, (Except.error.inj h).symm⟩
      · exact nomatch h
  rcases bind_eq_error_cases _ _ _ h with h | ⟨g, -, h⟩
  swap
  · exact nomatch h
  rcases bind_eq_error_cases _ _ _ h with h | ⟨⟨path, t⟩, -, h⟩
  · rcases bind_eq_error_cases _ _ _ h with h | ⟨path, -, h⟩
    · exact Document.exists_problem_of_selected_eq_error host s.inputPath store f h
    rcases bind_eq_error_cases _ _ _ h with h | ⟨whole, -, h⟩
    · exact exists_problem_of_read_eq_error host s store path f inputFile r h hr
    rcases bind_eq_error_cases _ _ _ h with h | ⟨t, -, h⟩
    · obtain ⟨p, -, rfl⟩ := exists_of_mapError_eq_error _ _ _ h
      exact ⟨p, rfl⟩
    rcases bind_eq_error_cases _ _ _ h with h | ⟨u, -, h⟩
    · obtain ⟨p, -, rfl⟩ := exists_of_mapError_eq_error _ _ _ h
      exact ⟨p, rfl⟩
    · exact nomatch h
  · rcases bind_eq_error_cases _ _ _ h with h | ⟨artifacts, -, h⟩
    · obtain ⟨p, -, rfl⟩ := exists_of_mapError_eq_error _ _ _ h
      exact ⟨p, rfl⟩
    · exact nomatch h

/-- What stops artifacts from being put into files and becomes a result is a refusal of the system.
-/
theorem exists_system_of_stopped (directory : Text) (skip : Bool) (as : List Artifact)
    (store store' : Store) (f : Failure) (inputFile : Text) (r : RunResult)
    (h : Artifact.Stopped host directory skip as store store' f)
    (hr : resultOf? s inputFile f = some r) : ∃ e, f = .system e := by
  obtain ⟨done, a, rest, -, -, hwhy⟩ := h
  obtain ⟨e, he, -⟩ := hwhy.exists_system s inputFile r hr
  exact ⟨e, he⟩

theorem not_hasDrift_iff (store : Store) (g : Generated) :
    ¬ HasDrift host s store g ↔ ∀ a ∈ g.artifacts,
      (compared host s store g).content? host.here (Path.join s.outputPath a.name) ≠ none ∧
      (compared host s store g).content? host.here (Path.join s.outputPath a.name) =
        rendition host s store g a := by
  simp only [HasDrift, not_exists, not_and, not_or, not_not, ne_eq,
    Store.content?_eq_none_iff_isFile]

/-- What is compared is what staging and formatting leave, wherever they are carried out. -/
theorem staged_and_compared_eq (store : Store) (g : Generated) (paths : List Text)
    (w w₁ w₂ : Workspace) (formatted : Except Failure Bool)
    (hw : w.store = withStaging host.here store)
    (hstage : (Verification.stage host (Verification.stagingPath host.here store)
      g.artifacts).runOn w = (.ok paths, w₁))
    (hformat : (formatWith host s (g.artifacts.map fun a =>
      Path.join (Verification.stagingPath host.here store) a.name)).runOn w₁ = (formatted, w₂)) :
    staged host store g = (.ok paths, w₁.store) ∧ compared host s store g = w₂.store := by
  have hstaged : staged host store g = (.ok paths, w₁.store) := by
    rw [staged, ← hw,
      (Verification.followsFiles_stage host _ g.artifacts).outcome_eq w w₁ _ hstage]
  refine ⟨hstaged, ?_⟩
  rw [compared, hstaged, (followsFiles_formatWith host s _).outcome_eq w₁ w₂ _ hformat]

section LastStage

variable (hhere : Path.isAbsolute host.here = true) (store : Store) (p : Preparation)
variable (g : Generated) (w : Workspace) (hstore : w.store = store)
include hstore

theorem reports_none_of_emit_eq_ok (hemit : s.noEmit = false) (w' : Workspace) (r : RunResult)
    (h : (emit host s p g).runOn w = (.ok r, w')) :
    r.Reports none ∧ ¬ IsRefused host s store g := by
  obtain ⟨paths, w₁, hwrite, h⟩ := Action.exists_of_runOn_bind_eq_ok _ _ _ _ _ h
  obtain ⟨formatted, w₂, -, h⟩ := Action.exists_of_runOn_bind_eq_ok _ _ _ _ _ h
  rw [Action.runOn_bind_of_ok _ _ w₂ _ _ (Action.runOn_record _ _ _ w₂)] at h
  obtain rfl := Except.ok.inj (Prod.mk.inj h).1
  have hstored : stored host s store g = .ok paths := by
    rw [stored, if_neg (by simp [hemit]), ← hstore,
      (Artifact.followsFiles_writeAll host _ _ g.artifacts).outcome_eq w w₁ _ hwrite]
  refine ⟨⟨rfl, iff_of_true rfl rfl, iff_of_false (fun h => nomatch h) (fun h => nomatch h)⟩, ?_⟩
  rintro (⟨e, hrefused⟩ | ⟨a, f, hcompares, -, -, -⟩)
  · cases hstored.symm.trans hrefused
  · cases hemit.symm.trans hcompares

variable (hg : generated host s store = .ok g)
include hhere hg

/-- A comparison that fails with a result has met an artifact that the system refuses: when it is
staged, or when its files are read. -/
theorem refused_of_verify_eq_error (hemit : s.noEmit = true) (w' : Workspace) (f : Failure)
    (inputFile : Text) (r : RunResult) (h : (verify host s p g).runOn w = (.error f, w'))
    (hr : resultOf? s inputFile f = some r) : ∃ e, f = .system e ∧ IsRefused host s store g := by
  have hnames := isEntryName_of_generated host s store g hg
  have hne := Verification.stagingPath_ne_nil host.here store
  have hfailure := stagingFailure_of_verify_eq_error host s p g w w' f h
  rw [hstore] at hfailure
  cases hfailure with
  | staging w₁ w₂ hsame hstage =>
      obtain ⟨e, rfl⟩ := exists_system_of_stopped host s _ _ g.artifacts _ _ f inputFile r
        (Verification.stopped_of_stage_eq_error host _ hhere hne g.artifacts w₁ w₂ f hnames hstage)
        hr
      refine ⟨e, rfl, .stored e ?_⟩
      rw [stored, if_pos hemit, staged, withStaging, ← hsame,
        (Verification.followsFiles_stage host _ g.artifacts).outcome_eq w₁ w₂ _ hstage]
  | formatting paths w₁ w₂ hformat =>
      exact absurd (formatWith_eq_error_of_format host s paths w₁ w₂ f hformat)
        (formatWith_ne_reported host s paths w₁ w₂ f inputFile r hr)
  | comparing paths w₁ w₂ w₃ q fault hsame hstage hformat hq hunread he =>
      obtain ⟨e, rfl⟩ := hunread.exists_system
      obtain ⟨rfl, -⟩ := Verification.written_of_stage_eq_ok host _ hhere hne g.artifacts paths w₁
        w₂ hnames hstage
      obtain ⟨b, w₄, hrun, hreturn⟩ := Action.exists_of_runOn_bind_eq_ok _ _ _ _ _ hformat
      obtain ⟨-, rfl⟩ := Prod.mk.inj hreturn
      obtain ⟨hstaged, hcompared⟩ :=
        staged_and_compared_eq host s store g _ w₁ w₂ w₄ _ hsame hstage hrun
      obtain ⟨a, path⟩ := q
      obtain ⟨ha, rfl⟩ := (Verification.mem_zip_map_iff _ g.artifacts a path).1 hq
      rw [← hcompared] at hunread
      refine ⟨e, he, .unread a (.system e) hemit ?_ ha hunread⟩
      rw [stored, if_pos hemit, hstaged]
      exact ⟨_, rfl⟩

/-- A last stage that fails with a result has met an artifact that the system refuses. -/
theorem generation_of_lastStage_eq_error (hp : prepared host s store = .ok p) (w' : Workspace)
    (f : Failure) (inputFile : Text) (r : RunResult)
    (h : (lastStage host s p g).runOn w = (.error f, w')) (hr : resultOf? s inputFile f = some r) :
    r.Reports (some .generation) ∧ IsRefused host s store g := by
  have hnames := isEntryName_of_generated host s store g hg
  obtain ⟨e, rfl, hrefused⟩ : ∃ e, f = .system e ∧ IsRefused host s store g := by
    cases hemit : s.noEmit with
    | true =>
        rw [lastStage, if_pos hemit] at h
        exact refused_of_verify_eq_error host s hhere store p g w hstore hg hemit w' f inputFile r h
          hr
    | false =>
        rw [lastStage, if_neg (by simp [hemit])] at h
        rcases emit_eq_error_cases host s p g w w' f h with hwrite | ⟨paths, w₁, hformat⟩
        · obtain ⟨e, rfl⟩ := exists_system_of_stopped host s _ _ g.artifacts _ _ f inputFile r
            (Artifact.stopped_of_writeAll_eq_error host s.outputPath _ hhere
              (outputPath_ne_nil_of_prepared host s store p hp) g.artifacts w w' f hnames hwrite) hr
          refine ⟨e, rfl, .stored e ?_⟩
          rw [stored, if_neg (by simp [hemit]), ← hstore,
            (Artifact.followsFiles_writeAll host _ _ g.artifacts).outcome_eq w w' _ hwrite]
        · exact absurd hformat (formatWith_ne_reported host s paths w₁ w' f inputFile r hr)
  obtain rfl := Option.some.inj hr
  exact ⟨reports_failed s inputFile .generation _ (by decide), hrefused⟩

/-- A last stage that compares and gives a result has met no refusal, and reports drift exactly if a
committed file is no file or differs from the formatted copy. -/
theorem reports_of_verify_eq_ok (hemit : s.noEmit = true) (w' : Workspace) (r : RunResult)
    (h : (verify host s p g).runOn w = (.ok r, w')) :
    ¬ IsRefused host s store g ∧
      (HasDrift host s store g ∧ r.Reports (some .driftMismatch) ∨
        ¬ HasDrift host s store g ∧ r.Reports none) := by
  have hnames := isEntryName_of_generated host s store g hg
  obtain ⟨v, w₁, hverify, hreports⟩ := exists_reports_of_verify_eq_ok host s p g w w' r h
  subst hstore
  rcases hcompare : (Verification.compareStaged host s.outputPath
    (Verification.stagingPath host.here w.store)
    (fun paths => do let _ ← formatWith host s paths) g.artifacts).runOn
      { w with store := withStaging host.here w.store } with ⟨result, w₂⟩
  rw [Verification.runOn_verify host s.outputPath _ g.artifacts w w₂ result hcompare] at hverify
  obtain ⟨standings, rfl, rfl⟩ := exists_of_map_eq_ok _ _ _ (Prod.mk.inj hverify).1
  obtain ⟨w₃, w₄, w₅, hsame, hstage, -, hformatted, hread, rfl⟩ :=
    Verification.exists_of_compareStaged_eq_ok host s.outputPath _ hhere
      (Verification.stagingPath_ne_nil _ _) g.artifacts hnames _ _ w₂ standings hcompare
  obtain ⟨b, w₆, hrun, hreturn⟩ := Action.exists_of_runOn_bind_eq_ok _ _ _ _ _ hformatted
  obtain ⟨-, rfl⟩ := Prod.mk.inj hreturn
  obtain ⟨hstaged, hcompared⟩ :=
    staged_and_compared_eq host s w.store g _ w₃ w₄ w₆ _ hsame hstage hrun
  have hok : (Verification.ofStandings s.outputPath (g.artifacts.map fun a => (a.name,
      Verification.standing (w₆.store.content? host.here (Path.join s.outputPath a.name))
        (w₆.store.content? host.here
          (Path.join (Verification.stagingPath host.here w.store) a.name))))).ok = true ↔
      ¬ HasDrift host s w.store g := by
    rw [Verification.ok_ofStandings_iff, List.forall_mem_map, not_hasDrift_iff]
    refine forall₂_congr fun a ha => ?_
    rw [Verification.standing_eq_same_iff, rendition, hcompared]
  constructor
  · rintro (⟨e, hrefused⟩ | ⟨a, f, -, -, ha, hunread⟩)
    · rw [stored, if_pos hemit, hstaged] at hrefused
      cases hrefused
    · exact hread a ha f (hcompared ▸ hunread)
  split at hreports
  · next hv => exact .inr ⟨hok.1 hv, hreports⟩
  · next hv => exact .inl ⟨not_not.1 fun hnot => hv (hok.2 hnot), hreports⟩

theorem exists_reports_of_lastStage_eq_ok (w' : Workspace) (r : RunResult)
    (h : (lastStage host s p g).runOn w = (.ok r, w')) :
    ∃ kind?, IsFirstDefect (storingDefects host s store) kind? ∧ r.Reports kind? := by
  have hrefused : ¬ IsRefused host s store g →
      ¬ ∃ g, generated host s store = .ok g ∧ IsRefused host s store g := by
    rintro hnot ⟨g', hg', hrefused⟩
    obtain rfl := Except.ok.inj (hg.symm.trans hg')
    exact hnot hrefused
  cases hemit : s.noEmit with
  | false =>
      rw [lastStage, if_neg (by simp [hemit])] at h
      obtain ⟨hreports, hnot⟩ :=
        reports_none_of_emit_eq_ok host s store p g w hstore hemit w' r h
      refine ⟨none, .inr ⟨hrefused hnot, .inr ⟨?_, rfl⟩⟩, hreports⟩
      rintro ⟨hcompare, -⟩
      cases hemit.symm.trans hcompare
  | true =>
      rw [lastStage, if_pos hemit] at h
      obtain ⟨hnot, hdrift⟩ :=
        reports_of_verify_eq_ok host s hhere store p g w hstore hg hemit w' r h
      rcases hdrift with ⟨hdrift, hreports⟩ | ⟨hdrift, hreports⟩
      · exact ⟨some .driftMismatch, .inr ⟨hrefused hnot, .inl ⟨⟨hemit, g, hg, hdrift⟩, rfl⟩⟩,
          hreports⟩
      · refine ⟨none, .inr ⟨hrefused hnot, .inr ⟨?_, rfl⟩⟩, hreports⟩
        rintro ⟨-, g', hg', hdrift'⟩
        obtain rfl := Except.ok.inj (hg.symm.trans hg')
        exact hdrift hdrift'

end LastStage

section Compared

variable (hhere : Path.isAbsolute host.here = true) (store : Store) (g : Generated)
variable (hg : generated host s store = .ok g) (paths : List Text)
variable (hstaged : (staged host store g).1 = .ok paths)
include hhere hg hstaged

theorem exists_runOn_stage_of_staged :
    ∃ w₁, (Verification.stage host (Verification.stagingPath host.here store) g.artifacts).runOn
        { store := withStaging host.here store } =
          (.ok (g.artifacts.map fun a =>
            Path.join (Verification.stagingPath host.here store) a.name), w₁) ∧
      Artifact.Written host.umask host.here (Verification.stagingPath host.here store) g.artifacts
        (withStaging host.here store) w₁.store := by
  rcases hstage : (Verification.stage host (Verification.stagingPath host.here store)
    g.artifacts).runOn { store := withStaging host.here store } with ⟨result, w₁⟩
  obtain rfl : result = .ok paths := by
    rw [← hstaged, staged, (Verification.followsFiles_stage host _ g.artifacts).outcome_eq _ w₁ _
      hstage]
  obtain ⟨rfl, hwritten⟩ :=
    Verification.written_of_stage_eq_ok host _ hhere (Verification.stagingPath_ne_nil _ _)
      g.artifacts paths _ w₁ (isEntryName_of_generated host s store g hg) hstage
  exact ⟨w₁, rfl, hwritten⟩

/-- The committed files are compared as they were before the run, if the formatter touches only the
files that it is given. -/
theorem content?_compared (hs : store.IsTree)
    (hdir : store.isDirectory host.here s.outputPath = true)
    (hformat : s.format = true → ∀ tool, Formatter.find host (some s.formatter) = .ok tool →
      tool.TouchesOnly host.here) :
    ∀ a ∈ g.artifacts,
      (compared host s store g).content? host.here (Path.join s.outputPath a.name) =
        store.content? host.here (Path.join s.outputPath a.name) := by
  have hnames := isEntryName_of_generated host s store g hg
  obtain ⟨w₁, hstage, hwritten⟩ :=
    exists_runOn_stage_of_staged host s hhere store g hg paths hstaged
  rcases hrun : (formatWith host s (g.artifacts.map fun a =>
    Path.join (Verification.stagingPath host.here store) a.name)).runOn w₁ with ⟨result, w₂⟩
  -- What is formatted stands in the staging directory, beside the committed files.
  have hbeside := Verification.isStaged_format host _ hhere
    (Verification.isAbsolute_stagingPath host.here store) g.artifacts hnames
    (nodup_map_name_of_generated host s store g hg) _ (touchesOnly_formatWith host s hformat) store
    { store := withStaging host.here store } w₁ hwritten
    (Verification.isStaged_stagingPath store host.here hs)
  have hstore : ((do
      let _ ← formatWith host s (g.artifacts.map fun a =>
        Path.join (Verification.stagingPath host.here store) a.name) : Action Unit).runOn
          w₁).2.store = w₂.store := by
    rw [Action.runOn_bind, hrun]
    cases result <;> rfl
  rw [hstore] at hbeside
  rw [(staged_and_compared_eq host s store g _ _ w₁ w₂ _ rfl hstage hrun).2]
  exact fun a ha => Verification.content?_of_isStaged _ _ _ hbeside host.here s.outputPath a.name
    (hnames a ha) hdir

/-- The fresh copies are formatted as the settings say: by the formatting that the formatter carries
out, or not at all. -/
theorem rendition_eq_of_formatsBy (f : Formatting) (hformats : FormatsBy host s f) :
    ∀ a ∈ g.artifacts, ∃ data, a.encode = .ok data ∧
      rendition host s store g a = some (f a.name data).1 := by
  have hnames := isEntryName_of_generated host s store g hg
  have hnodup := nodup_map_name_of_generated host s store g hg
  have hne := Verification.stagingPath_ne_nil host.here store
  obtain ⟨w₁, hstage, hwritten⟩ :=
    exists_runOn_stage_of_staged host s hhere store g hg paths hstaged
  have hkeep := hwritten.emitted hne hnames hnodup
  obtain ⟨b, w₂, hformat, heffect⟩ := hformats.exists_runOn _ w₁
    (hkeep.leadToFiles hne hnames hnodup _ fun _ _ _ => Iff.rfl)
  have hemitted := hkeep.of_formatted hne hnames
    (fun a => Path.join (Verification.stagingPath host.here store) a.name)
    (fun a ha => Path.base_join _ a.name hne (hnames a ha).slash_not_mem)
    (fun _ _ _ => Iff.rfl) heffect
  intro a ha
  obtain ⟨data, hdata, hcontent⟩ := hemitted.isHeld hne hnames a ha
  refine ⟨data, hdata, ?_⟩
  rw [rendition, (staged_and_compared_eq host s store g _ _ w₁ w₂ _ rfl hstage hformat).2, hcontent]

end Compared

/-- A run reports the first defect that is there. -/
theorem exists_reports_of_run_eq_ok (hhere : Path.isAbsolute host.here = true) (w w' : Workspace)
    (r : RunResult) (hrun : (run host s).runOn w = (.ok r, w')) :
    ∃ kind?, IsFirstDefect (defects host s w.store) kind? ∧ r.Reports kind? := by
  have hcourse := course_run host s w
  rw [hrun] at hcourse
  cases hcourse with
  | unread f w₁ hread hstore hending =>
      have hresult := resultOf?_of_conclude_eq_ok s [] f w₁ w' r hending.symm
      obtain ⟨p, rfl⟩ := exists_problem_of_readStages_eq_error host s w.store f [] r hread hresult
      obtain rfl := Option.some.inj hresult
      have hfirst := isFirstDefect_of_readStages_eq_error host s w.store p hread
      exact ⟨some p.kind, hfirst.append_some _,
        reports_failed s [] p.kind p.message p.kind_ne_driftMismatch⟩
  | unfinished p g f w₁ w₂ hread hstore hlast hending =>
      obtain ⟨hp, hg⟩ := (readStages_eq_ok_iff _ _ _ _ _).1 hread
      have hresult := resultOf?_of_conclude_eq_ok s g.inputFile f w₂ w' r hending.symm
      obtain ⟨hreports, hrefused⟩ := generation_of_lastStage_eq_error host s hhere w.store p g w₁
        hstore hg hp w₂ f g.inputFile r hlast hresult
      exact ⟨some .generation, (isFirstDefect_none_of_readStages_eq_ok host s w.store p g
        hread).append_of_none (.inl ⟨⟨g, hg, hrefused⟩, rfl⟩), hreports⟩
  | finished p g r' w₁ w₂ hread hstore hlast hending =>
      obtain ⟨-, hg⟩ := (readStages_eq_ok_iff _ _ _ _ _).1 hread
      obtain rfl := Except.ok.inj (Prod.mk.inj hending).1
      have hnone := isFirstDefect_none_of_readStages_eq_ok host s w.store p g hread
      obtain ⟨kind?, hfirst, hreports⟩ := exists_reports_of_lastStage_eq_ok host s hhere w.store p g
        w₁ hstore hg w₂ r hlast
      exact ⟨kind?, hnone.append_of_none hfirst, hreports⟩

/-- The results of all runs are classified completely and exclusively: the kind of error is that of
the first defect that is there, and is empty if no defect is. A result is good exactly if it has no
kind, drift is detected exactly if that is the kind, and the exit code follows the kind. Drift is
told at the time of the comparison: the committed files are then those from before the run, unless
the formatter touches files that it is not given, and the copies are the encoded artifacts,
formatted as the settings say. -/
theorem results_are_classified (hhere : Path.isAbsolute host.here = true) (w w' : Workspace)
    (r : RunResult) (hrun : (run host s).runOn w = (.ok r, w')) :
    (∀ kind?, r.errorKind = kindName kind? ↔ IsFirstDefect (defects host s w.store) kind?) ∧
      (r.ok = true ↔ r.errorKind = []) ∧
      (r.driftDetected = true ↔ r.errorKind = ProblemKind.driftMismatch.name) ∧
      r.exitCode = (if r.errorKind = [] then 0
        else if r.errorKind = ProblemKind.driftMismatch.name then 3 else 1) ∧
      ∀ g paths, generated host s w.store = .ok g → (staged host w.store g).1 = .ok paths →
        (w.store.IsTree → w.store.isDirectory host.here s.outputPath = true →
          (s.format = true → ∀ tool, Formatter.find host (some s.formatter) = .ok tool →
            tool.TouchesOnly host.here) →
          ∀ a ∈ g.artifacts,
            (compared host s w.store g).content? host.here (Path.join s.outputPath a.name) =
              w.store.content? host.here (Path.join s.outputPath a.name)) ∧
        ∀ f, FormatsBy host s f → ∀ a ∈ g.artifacts, ∃ data, a.encode = .ok data ∧
          rendition host s w.store g a = some (f a.name data).1 := by
  obtain ⟨kind?, hfirst, hreports⟩ :=
    exists_reports_of_run_eq_ok host s hhere w w' r hrun
  have hok : r.ok = true ↔ r.errorKind = [] := by
    rw [hreports.ok_iff, hreports.errorKind_eq]
    exact ⟨fun h => h ▸ rfl, fun h => kindName_injective h⟩
  have hdrift : r.driftDetected = true ↔ r.errorKind = ProblemKind.driftMismatch.name := by
    rw [hreports.driftDetected_iff, hreports.errorKind_eq]
    exact ⟨fun h => h ▸ rfl, fun h => kindName_injective h⟩
  refine ⟨fun kind => ?_, hok, hdrift, ?_, fun g paths hg hstaged =>
    ⟨content?_compared host s hhere w.store g hg paths hstaged,
      rendition_eq_of_formatsBy host s hhere w.store g hg paths hstaged⟩⟩
  · rw [hreports.errorKind_eq]
    constructor
    · intro h
      rwa [← kindName_injective h]
    · exact fun h => congrArg kindName (hfirst.unique _ _ _ h)
  · rw [RunResult.exitCode]
    simp only [hok, hdrift]

theorem results_are_classified_uncommitted :
    ∃ r w', (run bareHost { bareSettings with noEmit := true }).runOn nestedWorkspace =
        (.ok r, w') ∧
      IsFirstDefect (defects bareHost { bareSettings with noEmit := true } nestedWorkspace.store)
        (some .driftMismatch) ∧
      r.exitCode = 3 := by
  obtain ⟨r, hrun, hkind⟩ := Action.exists_runOn_eq_of_map_toOption RunResult.errorKind
    (run bareHost { bareSettings with noEmit := true }) nestedWorkspace
    ProblemKind.driftMismatch.name (by decide +kernel)
  obtain ⟨hiff, -, -, hexit, -⟩ := results_are_classified bareHost
    { bareSettings with noEmit := true } rfl nestedWorkspace _ r hrun
  refine ⟨r, _, hrun, (hiff (some .driftMismatch)).1 hkind, ?_⟩
  rw [hexit, hkind]
  decide

/-- A host that refuses to read the committed file with the keys. -/
def lockedHost : Host :=
  { bareHost with
    readRefusal := fun path => if path = "/out/translations.ts" then some .accessDenied else none }

def committedWorkspace : Workspace where
  store := nestedWorkspace.store.set ["out", Artifact.keysName] (.file [] 0o644)

/-- A comparison whose artifacts have all been staged can be refused a committed file. And a run can
miss a document in its directory, because the path of the document is too long. -/
theorem refused_and_unreachable_files_are_reported :
    (∃ g paths r w',
      generated lockedHost { bareSettings with noEmit := true } committedWorkspace.store = .ok g ∧
      stored lockedHost { bareSettings with noEmit := true } committedWorkspace.store g =
        .ok paths ∧
      (run lockedHost { bareSettings with noEmit := true }).runOn committedWorkspace = (.ok r, w') ∧
      r.errorKind = ProblemKind.generation.name) ∧
    ∃ r w', nestedWorkspace.store.isDirectory bareHost.here Document.longDirectory = true ∧
      nestedWorkspace.store.locate bareHost.here Document.longDirectory = .ok ["in"] ∧
      nestedWorkspace.store.IsFileAt ["in", "en.json"] ∧
      Document.suffix.isSuffixOf "en.json" = true ∧
      (run bareHost { bareSettings with inputPath := Document.longDirectory }).runOn
        nestedWorkspace = (.ok r, w') ∧
      r.errorKind = ProblemKind.noInputFound.name := by
  constructor
  · have hstored : ((generated lockedHost { bareSettings with noEmit := true }
          committedWorkspace.store >>=
        stored lockedHost { bareSettings with noEmit := true }
          committedWorkspace.store).toOption.map fun _ => ()) = some () := by
      decide +kernel
    obtain ⟨paths, hpaths, -⟩ := exists_of_map_toOption_eq_some _ _ _ hstored
    obtain ⟨g, hg, hpaths⟩ := exists_of_bind_eq_ok _ _ _ hpaths
    obtain ⟨r, hrun, hkind⟩ := Action.exists_runOn_eq_of_map_toOption RunResult.errorKind
      (run lockedHost { bareSettings with noEmit := true }) committedWorkspace
      ProblemKind.generation.name (by decide +kernel)
    exact ⟨g, paths, r, _, hg, hpaths, hrun, hkind⟩
  · obtain ⟨r, hrun, hkind⟩ := Action.exists_runOn_eq_of_map_toOption RunResult.errorKind
      (run bareHost { bareSettings with inputPath := Document.longDirectory }) nestedWorkspace
      ProblemKind.noInputFound.name (by decide +kernel)
    exact ⟨r, _, by decide +kernel, by decide +kernel, ⟨_, 0o644, rfl⟩, by decide, hrun, hkind⟩

end Run

end LocaleKeys
