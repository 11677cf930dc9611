import LocaleKeys.Proofs.Artifact.Staging
import LocaleKeys.Proofs.Document.Rejection
import LocaleKeys.Proofs.Run.Emission

/-!
# Which failures a run reports

A run reports problems and refusals of the system, and each report has a known kind. Three failures
are neither, and leave the run without a result (`Escaping`): an integer of the document that has
too many digits, an artifact that cannot be encoded, because a key holds a code point that is no
character, and output of the formatter that is no text. If the formatter is not interrupted there
are no others (`run_reports_or_escapes`), as long as the stack of the reader holds the document: how
deep it may nest is left out (`Json.read`).
-/

namespace LocaleKeys

namespace Artifact

/-- Why writing artifacts fails: the system refuses it, or one of them cannot be encoded. -/
inductive WritingFailure (as : List Artifact) : Failure → Prop
  | refused (e : SystemError) : WritingFailure as (.system e)
  | unencoded (a : Artifact) (ha : a ∈ as) (fault : Utf8.EncodeFault)
      (hencode : a.encode = .error fault) : WritingFailure as (.encoding fault)

section Nameable

variable (host : Host) (directory : Text) (as : List Artifact)
variable (hnameable : ∀ c ∈ host.here, Name.isNameable c = true)
variable (hdirectory : ∀ c ∈ directory, Name.isNameable c = true)
variable (hnames : ∀ a ∈ as, Verification.IsStageable a.name)
include hnameable hdirectory hnames

/-- What hinders an artifact in a directory whose path is a name is a refusal of the system, or that
it cannot be encoded. -/
theorem writingFailure_of_hindrance (skip : Bool) (a : Artifact) (ha : a ∈ as) (s : Store)
    (e : Failure) (h : Hindrance host directory skip s a e) : WritingFailure as e := by
  cases h with
  | unencoded fault hencode => exact .unencoded a ha fault hencode
  | unread data f hencode hskip hread =>
      obtain ⟨e, rfl⟩ := host.exists_system_of_content?_eq_error _ s f hread
      exact .refused e
  | refused data f hencode hreplace =>
      obtain ⟨e, rfl⟩ := host.exists_system_of_replace_eq_error _ s hnameable
        (Path.isNameable_of_mem_join directory a.name hdirectory (hnames a ha).isNameable) data f s
        hreplace
      exact .refused e

theorem writingFailure_of_stopped (skip : Bool) (s s' : Store) (e : Failure)
    (h : Stopped host directory skip as s s' e) : WritingFailure as e := by
  obtain ⟨done, a, rest, hartifacts, -, hwhy⟩ := h
  have ha : a ∈ as := hartifacts ▸ List.mem_append_right _ List.mem_cons_self
  exact writingFailure_of_hindrance host directory as hnameable hdirectory hnames skip a ha s' e
    hwhy

end Nameable

end Artifact

namespace Verification

theorem compareStaged_of_verify_eq_error (host : Host) (directory : Text)
    (format : List Text → Action Unit) (as : List Artifact) (w w' : Workspace) (e : Failure)
    (h : (verify host directory format as).runOn w = (.error e, w')) :
    ∃ w₁ w₂, w₁.store = w.store.set (locationOf (stagingPath host.here w.store))
        (.directory stagingMode) ∧
      (compareStaged host directory (stagingPath host.here w.store) format as).runOn w₁ =
        (.error e, w₂) := by
  refine ⟨{ w with
    store := w.store.set (locationOf (stagingPath host.here w.store)) (.directory stagingMode) },
    _, rfl, Prod.ext ?_ rfl⟩
  rw [runOn_verify host directory format as w _ _ rfl] at h
  exact eq_error_of_map_eq_error _ _ _ (Prod.mk.inj h).1

/-- Why a comparison in a staging directory fails: when the artifacts are staged, when they are
formatted, or because one of them is not read. -/
inductive StagingFailure (host : Host) (directory staging : Text)
    (format : List Text → Action Unit) (as : List Artifact) (s : Store) (e : Failure) : Prop
  | staging (w w' : Workspace) (hstore : w.store = s)
      (h : (stage host staging as).runOn w = (.error e, w'))
  | formatting (paths : List Text) (w w' : Workspace)
      (h : (format paths).runOn w = (.error e, w'))
  | comparing (paths : List Text) (w w₁ w₂ : Workspace) (p : Artifact × Text) (f : StoreFault)
      (hstore : w.store = s) (hstage : (stage host staging as).runOn w = (.ok paths, w₁))
      (hformat : (format paths).runOn w₁ = (.ok (), w₂)) (hp : p ∈ as.zip paths)
      (hunread : Unread host directory w₂.store p f) (he : e = .ofStore f)

theorem stagingFailure_of_compareStaged_eq_error (host : Host) (directory staging : Text)
    (format : List Text → Action Unit) (as : List Artifact) (w w' : Workspace) (e : Failure)
    (h : (compareStaged host directory staging format as).runOn w = (.error e, w')) :
    StagingFailure host directory staging format as w.store e := by
  rw [compareStaged, Action.runOn_bind_of_ok _ _ w _ () (Action.runOn_record _ _ _ w)] at h
  rcases Action.runOn_bind_eq_error _ _ _ _ _ h with hstage | ⟨paths, w₁, hstage, h⟩
  · exact .staging { w with journal := w.journal ++ [_] } _ rfl hstage
  rcases Action.runOn_bind_eq_error _ _ _ _ _ h with hformat | ⟨u, w₂, hformat, h⟩
  · exact .formatting paths w₁ _ hformat
  obtain ⟨w₃, hcompare, -⟩ :=
    (reads_compareAll host directory (as.zip paths)).exists_runOn_eq _ _ w₂
  obtain ⟨p, hp, f, hunread, he⟩ := exists_unread_of_comparedAll_eq_error host directory w₂.store
    _ e (Prod.mk.inj (hcompare.symm.trans h)).1
  exact .comparing paths { w with journal := w.journal ++ [_] } w₁ w₂ p f rfl hstage hformat hp
    hunread he

theorem isNameable_of_mem_stagingPath (here : Text) (s : Store) :
    ∀ c ∈ stagingPath here s, Name.isNameable c = true := by
  obtain ⟨k, -, hpath, -⟩ := exists_stagingPath_eq_stagingName s here _ rfl
  rw [hpath, ← join_stagingParent _ (isEntryName_stagingName k).slash_not_mem]
  exact Path.isNameable_of_mem_join _ _ (by decide) (isNameable_of_mem_stagingName k)

end Verification

namespace Run

variable (host : Host) (s : Settings) (p : Preparation) (g : Generated)

theorem ok_of_emit_eq_ok (w w' : Workspace) (r : RunResult)
    (h : (emit host s p g).runOn w = (.ok r, w')) : r.ok = true := by
  obtain ⟨written, w₁, -, h⟩ := Action.exists_of_runOn_bind_eq_ok _ _ _ _ _ h
  obtain ⟨formatted, w₂, -, h⟩ := Action.exists_of_runOn_bind_eq_ok _ _ _ _ _ h
  rw [Action.runOn_bind_of_ok _ _ w₂ _ _ (Action.runOn_record _ _ _ w₂)] at h
  rw [← Except.ok.inj (Prod.mk.inj h).1]
  rfl

theorem emit_eq_error_cases (w w' : Workspace) (e : Failure)
    (h : (emit host s p g).runOn w = (.error e, w')) :
    (Artifact.writeAll host s.outputPath (!s.format) g.artifacts).runOn w = (.error e, w') ∨
      ∃ paths w₁, (formatWith host s paths).runOn w₁ = (.error e, w') := by
  rcases Action.runOn_bind_eq_error _ _ _ _ _ h with hwrite | ⟨paths, w₁, -, h⟩
  · exact .inl hwrite
  · rcases Action.runOn_bind_eq_error _ _ _ _ _ h with hformat | ⟨formatted, w₂, -, h⟩
    · exact .inr ⟨paths, w₁, hformat⟩
    · rw [Action.runOn_bind_of_ok _ _ w₂ _ _ (Action.runOn_record _ _ _ w₂)] at h
      exact nomatch (Prod.mk.inj h).1

theorem kind_of_verify_eq_ok (w w' : Workspace) (r : RunResult)
    (h : (verify host s p g).runOn w = (.ok r, w')) (hfailed : r.ok = false) :
    r.errorKind = ProblemKind.driftMismatch.name := by
  obtain ⟨v, w₁, hverify, -⟩ := Action.exists_of_runOn_bind_eq_ok _ _ _ _ _ h
  obtain ⟨r', w₂, hrun, -, hok, -, hkind⟩ := exists_runOn_verify host s p g w w₁ v hverify
  obtain rfl := Except.ok.inj (Prod.mk.inj (h.symm.trans hrun)).1
  exact hkind (hok.symm.trans hfailed)

theorem verify_of_verify_eq_error (w w' : Workspace) (e : Failure)
    (h : (verify host s p g).runOn w = (.error e, w')) :
    ∃ w₁, (Verification.verify host s.outputPath
      (fun paths => do let _ ← formatWith host s paths) g.artifacts).runOn w = (.error e, w₁) := by
  rcases Action.runOn_bind_eq_error _ _ _ _ _ h with hverify | ⟨v, w₁, hverify, -⟩
  · exact ⟨_, hverify⟩
  · obtain ⟨r, w₂, hrun, -⟩ := exists_runOn_verify host s p g w w₁ v hverify
    exact nomatch (Prod.mk.inj (h.symm.trans hrun)).1

/-- A last stage that compares fails in its staging directory. -/
theorem stagingFailure_of_verify_eq_error (w w' : Workspace) (e : Failure)
    (h : (verify host s p g).runOn w = (.error e, w')) :
    Verification.StagingFailure host s.outputPath
      (Verification.stagingPath host.here w.store)
      (fun paths => do let _ ← formatWith host s paths) g.artifacts
      (w.store.set (Verification.locationOf (Verification.stagingPath host.here w.store))
        (.directory Verification.stagingMode)) e := by
  obtain ⟨w₁, hverify⟩ := verify_of_verify_eq_error host s p g w w' e h
  obtain ⟨w₂, w₃, hstore, hcompare⟩ :=
    Verification.compareStaged_of_verify_eq_error host s.outputPath _ g.artifacts w w₁ e hverify
  rw [← hstore]
  exact Verification.stagingFailure_of_compareStaged_eq_error host _ _ _ _ w₂ w₃ e hcompare

theorem formatWith_eq_error_of_format (paths : List Text) (w w' : Workspace) (e : Failure)
    (h : (do let _ ← formatWith host s paths : Action Unit).runOn w = (.error e, w')) :
    (formatWith host s paths).runOn w = (.error e, w') := by
  rcases Action.runOn_bind_eq_error _ _ _ _ _ h with hformat | ⟨b, w₁, -, hreturn⟩
  · exact hformat
  · cases (Prod.mk.inj hreturn).1

theorem kind_of_lastStage_eq_ok (w w' : Workspace) (r : RunResult)
    (h : (lastStage host s p g).runOn w = (.ok r, w')) (hfailed : r.ok = false) :
    ∃ kind : ProblemKind, r.errorKind = kind.name := by
  rw [lastStage] at h
  split at h
  · exact ⟨.driftMismatch, kind_of_verify_eq_ok host s p g w w' r h hfailed⟩
  · rw [ok_of_emit_eq_ok host s p g w w' r h] at hfailed
    cases hfailed

/-- Whether the formatter of the settings prints what is no text when it is called with some files.
-/
def PrintsNoText (f : Utf8.DecodeFault) : Prop :=
  s.format = true ∧ ∃ tool paths store, Formatter.find host (some s.formatter) = .ok tool ∧
    (tool.run host.here (Formatter.command tool.path paths) store).1 = .undecoded f

theorem NeverInterrupted.exists_printsNoText (hnever : NeverInterrupted host s)
    (paths : List Text) (w w' : Workspace) (e : Failure)
    (h : (formatWith host s paths).runOn w = (.error e, w')) :
    ∃ f, PrintsNoText host s f ∧ e = .decoding f := by
  obtain ⟨hformat, tool, f, hfind, hout, he⟩ := hnever.exists_decoding host s paths w w' e h
  exact ⟨f, ⟨hformat, tool, paths, w.store, hfind, hout⟩, he⟩

/-- Without an interruption the last stage fails only with what writing artifacts fails with, or
with output of the formatter that is no text. -/
theorem lastStage_eq_error_cases (hnever : NeverInterrupted host s)
    (hhere : Path.isAbsolute host.here = true)
    (hnameable : ∀ c ∈ host.here, Name.isNameable c = true) (store : Store)
    (houtput : store.isDirectory host.here s.outputPath = true)
    (hg : generated host s store = .ok g) (w w' : Workspace) (e : Failure)
    (h : (lastStage host s p g).runOn w = (.error e, w')) :
    Artifact.WritingFailure g.artifacts e ∨ ∃ f, PrintsNoText host s f ∧ e = .decoding f := by
  have hnames := isStageable_of_generated host s store g hg
  have hentries := isEntryName_of_generated host s store g hg
  rw [lastStage] at h
  split at h
  · cases stagingFailure_of_verify_eq_error host s p g w w' e h with
    | staging w₁ w₂ hstore hstage =>
        exact .inl (Artifact.writingFailure_of_stopped host _ g.artifacts hnameable
          (Verification.isNameable_of_mem_stagingPath host.here w.store) hnames _ _ _ e
          (Verification.stopped_of_stage_eq_error host _ hhere
            (Verification.stagingPath_ne_nil host.here w.store) g.artifacts w₁ w₂ e hentries
            hstage))
    | formatting paths w₁ w₂ hformat =>
        exact .inr (hnever.exists_printsNoText host s paths w₁ w₂ e
          (formatWith_eq_error_of_format host s paths w₁ w₂ e hformat))
    | comparing paths w₁ w₂ w₃ q f hstore hstage hformat hq hunread he =>
        obtain ⟨r, rfl⟩ := hunread.exists_system
        exact .inl (he ▸ .refused r)
  · obtain ⟨l, hl, -⟩ := (Store.isDirectory_iff _ _ _).1 houtput
    obtain ⟨hdirectory, hdir, -⟩ := (Store.locate_eq_ok_iff _ _ _ _).1 hl
    rcases emit_eq_error_cases host s p g w w' e h with hwrite | ⟨paths, w₁, hformat⟩
    · exact .inl (Artifact.writingFailure_of_stopped host s.outputPath g.artifacts hnameable
        hdirectory hnames _ _ _ e (Artifact.stopped_of_writeAll_eq_error host s.outputPath _ hhere
          hdir g.artifacts w w' e hentries hwrite))
    · exact .inr (hnever.exists_printsNoText host s paths w₁ w' e hformat)

/-- The reading stages fail with a problem, or at a long integer. -/
theorem readStages_eq_error_cases (hnameable : ∀ c ∈ host.here, Name.isNameable c = true)
    (store : Store) (f : Failure) (h : readStages host s store = .error f) :
    (∃ p, f = .problem p) ∨ ∃ n, Document.HoldsLongInteger host s.inputPath store n ∧
      f = .value (.integerDigits n) := by
  rcases bind_eq_error_cases _ _ _ h with h | ⟨p, -, h⟩
  · unfold prepared at h
    split at h
    · exact .inl ⟨_, (Except.error.inj h).symm⟩
    · split at h
      · exact .inl ⟨_, (Except.error.inj h).symm⟩
      · exact nomatch h
  rcases bind_eq_error_cases _ _ _ h with h | ⟨g, -, h⟩
  · rcases bind_eq_error_cases _ _ _ h with h | ⟨⟨path, t⟩, -, h⟩
    · exact Document.loaded_eq_error_cases host s.inputPath store hnameable s.excludeKey f h
    · rcases bind_eq_error_cases _ _ _ h with h | ⟨artifacts, -, h⟩
      · obtain ⟨p, -, rfl⟩ := exists_of_mapError_eq_error _ _ _ h
        exact .inl ⟨p, rfl⟩
      · exact nomatch h
  · exact nomatch h

/-- What leaves a run without a result: an integer of the document with too many digits, an artifact
that cannot be encoded, or output of the formatter that is no text. -/
inductive Escaping (w : Workspace) : Failure → Prop
  | integer (n : Nat) (h : Document.HoldsLongInteger host s.inputPath w.store n) :
      Escaping w (.value (.integerDigits n))
  | artifact (g : Generated) (a : Artifact) (fault : Utf8.EncodeFault)
      (hg : ((generate host s).runOn w).1 = .ok g) (ha : a ∈ g.artifacts)
      (hencode : a.encode = .error fault) : Escaping w (.encoding fault)
  | output (f : Utf8.DecodeFault) (h : PrintsNoText host s f) : Escaping w (.decoding f)

/-- Every run gives a result, and one of a known kind if it has failed, or it ends with a failure
that escapes. The formatter must not be interrupted. -/
theorem run_reports_or_escapes (hnever : NeverInterrupted host s)
    (hhere : Path.isAbsolute host.here = true)
    (hnameable : ∀ c ∈ host.here, Name.isNameable c = true) (w : Workspace) :
    (∃ r w', (run host s).runOn w = (.ok r, w') ∧
        (r.ok = false → ∃ kind : ProblemKind, r.errorKind = kind.name)) ∨
      ∃ f w', (run host s).runOn w = (.error f, w') ∧ Escaping host s w f := by
  have hreported : ∀ inputFile f r w₁ w', resultOf? s inputFile f = some r →
      (run host s).runOn w = (conclude s inputFile f).runOn w₁ →
      (conclude s inputFile f).runOn w₁ = (.ok r, w') →
      ∃ r w', (run host s).runOn w = (.ok r, w') ∧
        (r.ok = false → ∃ kind : ProblemKind, r.errorKind = kind.name) :=
    fun inputFile f r w₁ w' hresult hrun hconclude =>
      ⟨r, w', hrun.trans hconclude, fun _ => (failed_of_resultOf? s inputFile f r hresult).2⟩
  cases course_run host s w with
  | unread f w₁ hread hstore hending =>
      obtain ⟨w₂, -, ⟨r, hresult, hconclude⟩ | ⟨hnone, hconclude⟩⟩ :=
        exists_runOn_conclude s [] f w₁
      · exact .inl (hreported [] f r w₁ w₂ hresult hending hconclude)
      · refine .inr ⟨f, w₂, hending.trans hconclude, ?_⟩
        rcases readStages_eq_error_cases host s hnameable w.store f hread with
          ⟨p, rfl⟩ | ⟨n, hlong, rfl⟩
        · exact nomatch hnone
        · exact .integer n hlong
  | unfinished p g f w₁ w₂ hread hstore hlast hending =>
      obtain ⟨hp, hg⟩ := (readStages_eq_ok_iff _ _ _ _ _).1 hread
      obtain ⟨-, houtput⟩ := (exists_prepared_iff _ _ _).1 ⟨p, hp⟩
      have hwriting := lastStage_eq_error_cases host s p g hnever hhere hnameable w.store houtput hg
        w₁ w₂ f hlast
      obtain ⟨w₃, -, ⟨r, hresult, hconclude⟩ | ⟨hnone, hconclude⟩⟩ :=
        exists_runOn_conclude s g.inputFile f w₂
      · exact .inl (hreported g.inputFile f r w₂ w₃ hresult hending hconclude)
      · refine .inr ⟨f, w₃, hending.trans hconclude, ?_⟩
        rcases hwriting with (⟨e⟩ | ⟨a, ha, fault, hencode⟩) | ⟨d, hprints, rfl⟩
        · exact nomatch hnone
        · have hgenerate := (reads_generate host s).fst_runOn _ _ w
          exact .artifact g a fault (hgenerate.trans hg) ha hencode
        · exact .output d hprints
  | finished p g r w₁ w₂ hread hstore hlast hending =>
      exact .inl ⟨r, w₂, hending, kind_of_lastStage_eq_ok host s p g w₁ w₂ r hlast⟩

/-- A workspace with a document in which a key is half a character. -/
def surrogateWorkspace : Workspace where
  store := ⟨[(["tmp"], .directory 0o755), (["in"], .directory 0o755),
    (["out"], .directory 0o755),
    (["in", "en.json"], .file (Utf8.encodeChars
      "\x7b\"\\ud800\": 1\x7d".toList) 0o644)]⟩

theorem runOn_run_surrogateWorkspace_ne_ok (r : RunResult) (w' : Workspace) :
    (run bareHost bareSettings).runOn surrogateWorkspace ≠ (.ok r, w') := by
  intro hrun
  have hnone :
      ((run bareHost bareSettings).runOn surrogateWorkspace).1.toOption.isSome = false := by
    decide +kernel
  rw [hrun] at hnone
  exact nomatch hnone

/-- A run can end without a result. -/
theorem not_every_run_reports :
    ¬ ∃ r w', (run bareHost bareSettings).runOn surrogateWorkspace = (.ok r, w') := by
  rintro ⟨r, w', hrun⟩
  exact runOn_run_surrogateWorkspace_ne_ok r w' hrun

theorem run_reports_or_escapes_surrogate :
    ∃ f w', (run bareHost bareSettings).runOn surrogateWorkspace = (.error f, w') ∧
      Escaping bareHost bareSettings surrogateWorkspace f := by
  refine (run_reports_or_escapes bareHost bareSettings (fun h => nomatch h) rfl (by decide)
    surrogateWorkspace).resolve_left ?_
  rintro ⟨r, w', hrun, -⟩
  exact runOn_run_surrogateWorkspace_ne_ok r w' hrun

end Run

end LocaleKeys
