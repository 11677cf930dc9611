import LocaleKeys.Proofs.Artifact.Skipping
import LocaleKeys.Proofs.Run.Atomicity
import LocaleKeys.Proofs.Run.DryRun
import LocaleKeys.Proofs.Run.Journal

/-!
# What a format makes of a run

Two runs are put beside each other that start from the same files: one formats what it writes, the
other does not. They read alike, so that they fail alike up to the writing. They write in different
ways, because only the run that does not format reads the files that are there and skips those that
hold the right bytes already. From then on only the formatter can tell the runs apart.

Of its ending nothing is kept but whether it has formatted the files, unless its output is no text:
then the run ends without a result. So there are four ways in which the run with a format follows
the other (`formatted_run_follows_plain_run`), and formatting is not always harmless
(`formatting_can_be_fatal`): output that is no text is fatal, and so is a skipped file that cannot
be written anew.
-/

namespace LocaleKeys

def Workspace.KeepsCalls (w w' : Workspace) : Prop := w'.calls = w.calls

instance : IsPreorder Workspace Workspace.KeepsCalls where
  refl _ := rfl
  trans _ _ _ h h' := h'.trans h

open Workspace (KeepsCalls)

namespace Action

theorem keepsCalls_record (severity : Severity) (source message : Text) :
    (record severity source message).Leads KeepsCalls := fun _ => rfl

theorem keepsCalls_change {α : Type} (f : Store → Except StoreFault α × Store) :
    (change f).Leads KeepsCalls := by
  intro w
  have hget : (get : Action Workspace).runOn w = (.ok w, w) := rfl
  rw [change, runOn_bind_of_ok _ _ w w w hget]
  rcases f w.store with ⟨e | x, s⟩ <;> rfl

theorem isCompositional_keepsCalls : IsCompositional fun _ a => a.Leads KeepsCalls where
  pure := leads_pure
  bind := Leads.bind
  failing _ _ _ := rfl
  record := keepsCalls_record
  inspect := leads_inspect
  ofStore f _ := leads_ofStore f
  change := keepsCalls_change

end Action

namespace Run

def expectedPaths (host : Host) (s : Settings) : List Text :=
  (OutputMode.expectedNames s.outputMode).map fun n =>
    Path.absolute host.here (Path.join s.outputPath n)

/-- What a run that is asked for a format has done with the formatter when it gives `r'` and leaves
`w₂`, after it has written the files `written`. -/
structure FormatsOnce (host : Host) (s : Settings) (w w₂ : Workspace) (written : Store)
    (r' : RunResult) : Prop where
  /-- Files have been formatted exactly if there are some and the formatter is found, starts and
  exits with zero. -/
  formatted_iff : r'.formatted = true ↔ r'.ok = true ∧
    ∃ tool output errors, Formatter.find host (some s.formatter) = .ok tool ∧
      (tool.run host.here (Formatter.command tool.path r'.artifacts) written).1 =
        .finished 0 output errors
  /-- The files of an `ok` result are those that have been written. -/
  artifacts_eq : r'.ok = true → r'.artifacts = expectedPaths host s
  /-- The formatter is called once and with these files last, or not at all if the run fails or no
  formatter is found. -/
  calls_cases :
    (r'.ok = true ∧ ∃ tool, Formatter.find host (some s.formatter) = .ok tool ∧
      w₂.calls = w.calls ++ [tool.path :: (Formatter.options ++ r'.artifacts)]) ∨
    ((r'.ok = false ∨ ∀ tool, Formatter.find host (some s.formatter) ≠ .ok tool) ∧
      w₂.calls = w.calls)

/-- Whether a format makes nothing else of a run. Without it the run gives `r` and leaves `w₁`; with
it the run gives `r'` and leaves `w₂`. -/
structure Tolerates (host : Host) (s : Settings) (w w₁ w₂ : Workspace) (r r' : RunResult) : Prop
    extends FormatsOnce host s w w₂ w₁.store r' where
  /-- The results are the same but for what they say of the formatting. -/
  same : { r' with formatted := false } = r

def writtenAnew (host : Host) (s : Settings) (store : Store) (g : Generated) : Store :=
  ((Artifact.writeAll host s.outputPath false g.artifacts).outcome store).2

/-- Whether no formatter is called in between, or only once and with the artifacts. -/
def CallsOnce (host : Host) (s : Settings) (w w₂ : Workspace) : Prop :=
  w₂.calls = w.calls ∨ ∃ tool, Formatter.find host (some s.formatter) = .ok tool ∧
    w₂.calls = w.calls ++ [Formatter.command tool.path (expectedPaths host s)]

/-- How a run that is asked for a format ends, beside one without a format that gives `r` and leaves
`w₁`. It ends in the same way but for the formatting, or without a result because the output of the
formatter is no text; or the two runs have parted before the formatting, at a file that is skipped
but not written anew, or at one that may not be read and so is not skipped. -/
inductive Follows (host : Host) (s : Settings) (w w₁ : Workspace) (r : RunResult) :
    Except Failure RunResult × Workspace → Prop
  | tolerated (r' : RunResult) (w₂ : Workspace) (h : Tolerates host s w w₁ w₂ r r') :
      Follows host s w w₁ r (.ok r', w₂)
  | undecoded (tool : Tool) (f : Utf8.DecodeFault) (w₂ : Workspace) (hok : r.ok = true)
      (hfind : Formatter.find host (some s.formatter) = .ok tool)
      (hrun : tool.run host.here (Formatter.command tool.path r.artifacts) w₁.store =
        (.undecoded f, w₂.store))
      (hcalls : w₂.calls = w.calls ++ [Formatter.command tool.path r.artifacts]) :
      Follows host s w w₁ r (.error (.decoding f), w₂)
  | refused (g : Generated) (a : Artifact) (r' : RunResult) (w₂ : Workspace)
      (hg : ((generate host s).runOn w).1 = .ok g) (ha : a ∈ g.artifacts)
      (hheld : a.IsHeld .keep host.here s.outputPath w.store)
      (hcannot : ¬ (w.store.HasTemporaryPlace host.here (Path.join s.outputPath a.name) ∧
        host.refusals (Path.join s.outputPath a.name) = .none))
      (hok : r'.ok = false) (hkind : r'.errorKind = ProblemKind.generation.name)
      (hcalls : w₂.calls = w.calls) : Follows host s w w₁ r (.ok r', w₂)
  | unread (g : Generated) (a : Artifact) (f : StoreFault)
      (ending : Except Failure RunResult × Workspace)
      (hg : ((generate host s).runOn w).1 = .ok g) (ha : a ∈ g.artifacts)
      (hread : host.content? (Path.join s.outputPath a.name) w.store = .error f)
      (hok : r.ok = false) (hkind : r.errorKind = ProblemKind.generation.name)
      (hending : ∀ r' w₂, ending = (.ok r', w₂) →
        FormatsOnce host s w w₂ (writtenAnew host s w.store g) r')
      (hcalls : CallsOnce host s w ending.2) : Follows host s w w₁ r ending

section Failed

variable (host : Host) (s : Settings) (w w₁ w₂ : Workspace) (r : RunResult) (hok : r.ok = false)
  (hformatted : r.formatted = false) (hcalls : w₂.calls = w.calls)
include hok hformatted hcalls

theorem formatsOnce_of_failed (written : Store) : FormatsOnce host s w w₂ written r where
  formatted_iff := by
    rw [hok, hformatted]
    exact iff_of_false Bool.false_ne_true fun h => Bool.false_ne_true h.1
  artifacts_eq h := absurd (hok.symm.trans h) Bool.false_ne_true
  calls_cases := .inr ⟨.inl hok, hcalls⟩

theorem tolerates_of_failed : Tolerates host s w w₁ w₂ r r where
  toFormatsOnce := formatsOnce_of_failed host s w w₂ r hok hformatted hcalls w₁.store
  same := by rw [← hformatted]

end Failed

section Concluding

variable (s : Settings) (inputFile : Text) (f : Failure)

theorem resultOf?_withFormat (format : Bool) :
    resultOf? { s with format } inputFile f = resultOf? s inputFile f := by
  cases f <;> rfl

theorem formatted_of_resultOf? (r : RunResult) (h : resultOf? s inputFile f = some r) :
    r.formatted = false := by
  unfold resultOf? at h
  split at h
  · rw [← Option.some.inj h]
    rfl
  · rw [← Option.some.inj h]
    rfl
  · exact nomatch h

theorem runOn_conclude_of_resultOf? (r : RunResult) (w : Workspace)
    (h : resultOf? s inputFile f = some r) :
    (conclude s inputFile f).runOn w =
      (.ok r, { w with journal := w.journal ++ [⟨.error, Source.run, r.error⟩] }) := by
  rw [conclude, h]
  rfl

theorem calls_conclude (w : Workspace) : ((conclude s inputFile f).runOn w).2.calls = w.calls := by
  unfold conclude
  cases resultOf? s inputFile f <;> rfl

/-- A run that fails without a format fails in the same way with one. -/
theorem exists_runOn_conclude_withFormat (w w₁ w' : Workspace) (r : RunResult)
    (h : (conclude { s with format := false } inputFile f).runOn w = (.ok r, w₁)) :
    r.ok = false ∧ r.formatted = false ∧
      ∃ w₂, (conclude s inputFile f).runOn w' = (.ok r, w₂) ∧ w₂.calls = w'.calls := by
  have hresult := resultOf?_of_conclude_eq_ok _ inputFile f w w₁ r h
  rw [resultOf?_withFormat] at hresult
  exact ⟨(failed_of_resultOf? s inputFile f r hresult).1,
    formatted_of_resultOf? s inputFile f r hresult, _,
    runOn_conclude_of_resultOf? s inputFile f r w' hresult, rfl⟩

end Concluding

theorem expectedNames_ne_nil_of_generated (host : Host) (s : Settings) (store : Store)
    (g : Generated) (h : generated host s store = .ok g) :
    OutputMode.expectedNames s.outputMode ≠ [] := by
  obtain ⟨mode, t, hmode, -⟩ := exists_tree_of_generated host s store g h
  rw [hmode, OutputMode.expectedNames_name]
  exact List.ne_nil_of_mem mode.keysName_mem_artifactNames

section Emitting

variable (host : Host) (s : Settings) (p : Preparation) (g : Generated)

def emittedResult (written : List Text) (formatted : Bool) : RunResult :=
  { RunResult.succeeded s g.inputFile g.keyCount written formatted with
    summary := [("expected_files", .strings p.expected),
      ("existing_files_before_run", .strings p.existing)] }

theorem exists_of_emit_of_not_format (hformat : s.format = false) (w w' : Workspace)
    (result : Except Failure RunResult) (h : (emit host s p g).runOn w = (result, w')) :
    ∃ written w₁, (Artifact.writeAll host s.outputPath true g.artifacts).runOn w = (written, w₁) ∧
      result = written.map (emittedResult s p g · false) ∧ w'.store = w₁.store := by
  rw [emit, hformat, Bool.not_false, Action.runOn_bind] at h
  rcases hwrite : (Artifact.writeAll host s.outputPath true g.artifacts).runOn w with
    ⟨e | paths, w₁⟩
  · rw [hwrite] at h
    obtain ⟨rfl, rfl⟩ := Prod.mk.inj h
    exact ⟨_, _, rfl, rfl, rfl⟩
  · simp only [hwrite] at h
    rw [Action.runOn_bind_of_ok _ _ w₁ w₁ false (runOn_formatWith_of_not_format host s hformat _ _)]
      at h
    obtain ⟨rfl, rfl⟩ := Prod.mk.inj h
    exact ⟨_, _, rfl, rfl, rfl⟩

end Emitting

/-- How a last stage ends that writes all artifacts anew and formats them, from what the writing
gives and leaves. -/
inductive Emits (host : Host) (s : Settings) (p : Preparation) (g : Generated) (w : Workspace) :
    Except Failure (List Text) × Store → Except Failure RunResult × Workspace → Prop
  | unwritten (e : Failure) (written : Store) (w₂ : Workspace) (hcalls : w₂.calls = w.calls) :
      Emits host s p g w (.error e, written) (.error e, w₂)
  | undecoded (paths : List Text) (written : Store) (tool : Tool) (f : Utf8.DecodeFault)
      (w₂ : Workspace) (hpaths : paths = expectedPaths host s)
      (hfind : Formatter.find host (some s.formatter) = .ok tool)
      (hrun : tool.run host.here (Formatter.command tool.path paths) written =
        (.undecoded f, w₂.store))
      (hcalls : w₂.calls = w.calls ++ [Formatter.command tool.path paths]) :
      Emits host s p g w (.ok paths, written) (.error (.decoding f), w₂)
  | emitted (paths : List Text) (written : Store) (formatted : Bool) (w₂ : Workspace)
      (h : FormatsOnce host s w w₂ written (emittedResult s p g paths formatted)) :
      Emits host s p g w (.ok paths, written) (.ok (emittedResult s p g paths formatted), w₂)

section Formatting

variable (host : Host) (s : Settings) (hformat : s.format = true)
variable (hnever : NeverInterrupted host s)
include hformat hnever

/-- A formatter that is not interrupted is called once with the files, if it is found, and says
whether it has formatted them, unless its output is no text. -/
theorem formatWith_cases (paths : List Text) (hne : paths ≠ []) (w : Workspace) :
    (∃ tool f w', Formatter.find host (some s.formatter) = .ok tool ∧
      tool.run host.here (Formatter.command tool.path paths) w.store = (.undecoded f, w'.store) ∧
      (formatWith host s paths).runOn w = (.error (.decoding f), w') ∧
      w'.calls = w.calls ++ [Formatter.command tool.path paths]) ∨
    ∃ b w', (formatWith host s paths).runOn w = (.ok b, w') ∧
      (b = true ↔ ∃ tool output errors, Formatter.find host (some s.formatter) = .ok tool ∧
        (tool.run host.here (Formatter.command tool.path paths) w.store).1 =
          .finished 0 output errors) ∧
      ((∃ tool, Formatter.find host (some s.formatter) = .ok tool ∧
          w'.calls = w.calls ++ [Formatter.command tool.path paths]) ∨
        (∀ tool, Formatter.find host (some s.formatter) ≠ .ok tool) ∧ w'.calls = w.calls) := by
  rw [formatWith, hformat, if_pos rfl]
  cases hfind : Formatter.find host (some s.formatter) with
  | error e =>
      have hidle : ∀ tool, Formatter.find host (some s.formatter) ≠ .ok tool := by
        intro tool h
        cases hfind.symm.trans h
      obtain ⟨records, hrun⟩ :=
        Formatter.exists_records_runOn_format_of_idle host _ paths w (.inr hidle)
      refine .inr ⟨false, _, hrun, iff_of_false Bool.false_ne_true ?_, .inr ⟨?_, rfl⟩⟩
      · rintro ⟨tool, output, errors, h, -⟩
        cases h
      · intro tool h
        cases h
  | ok tool =>
      obtain ⟨records, hrun⟩ :=
        Formatter.exists_records_runOn_format_of_find host _ paths w tool hne hfind
      have hiff := ToolOutcome.verdict_eq_true_iff
        (tool.run host.here (Formatter.command tool.path paths) w.store).1
      cases hverdict :
        (tool.run host.here (Formatter.command tool.path paths) w.store).1.verdict with
      | error e =>
          rw [hverdict] at hrun
          rcases (ToolOutcome.verdict_eq_error_iff _ e).1 hverdict with ⟨hout, -⟩ | ⟨f, hout, rfl⟩
          · exact absurd hout (hnever hformat tool hfind _ _)
          · exact .inl ⟨tool, f, _, rfl, Prod.ext hout rfl, hrun, rfl⟩
      | ok b =>
          rw [hverdict] at hrun
          rw [hverdict, Except.ok.injEq] at hiff
          refine .inr ⟨b, _, hrun, hiff.trans ?_, .inl ⟨tool, rfl, rfl⟩⟩
          constructor
          · rintro ⟨output, errors, h⟩
            exact ⟨tool, output, errors, rfl, h⟩
          · rintro ⟨tool', output, errors, htool, h⟩
            obtain rfl := Except.ok.inj htool
            exact ⟨output, errors, h⟩

variable (hhere : Path.isAbsolute host.here = true)
include hhere

/-- A last stage that formats ends as what it writes and the formatter say. -/
theorem emits_emit (p : Preparation) (g : Generated) (w w₀ : Workspace)
    (hg : generated host s w.store = .ok g) (hstore : w₀.store = w.store)
    (hcalls : w₀.calls = w.calls) :
    Emits host s p g w ((Artifact.writeAll host s.outputPath false g.artifacts).outcome w.store)
      ((emit host s p g).runOn w₀) := by
  have hkeeps := Action.isCompositional_keepsCalls.writeAll host s.outputPath false g.artifacts w₀
  rw [← hstore, ← Artifact.followsFiles_writeAll host s.outputPath false g.artifacts w₀, emit,
    hformat, Bool.not_true]
  rcases hwrite : (Artifact.writeAll host s.outputPath false g.artifacts).runOn w₀ with
    ⟨e | paths, w₁⟩
  · rw [hwrite] at hkeeps
    rw [Action.runOn_bind_of_error _ _ w₀ w₁ e hwrite]
    exact .unwritten e w₁.store w₁ (hkeeps.trans hcalls)
  rw [hwrite] at hkeeps
  have hcalls₁ : w₁.calls = w.calls := hkeeps.trans hcalls
  have hexpected : paths = expectedPaths host s := by
    obtain ⟨hpaths, -⟩ := Artifact.laid_of_writeAll_eq_ok host s.outputPath false hhere g.artifacts
      paths w₀ w₁ hwrite
    rw [hpaths, expectedPaths, ← map_name_of_generated host s w.store g hg, List.map_map]
    rfl
  have hne : paths ≠ [] := by
    rw [hexpected]
    exact mt List.map_eq_nil_iff.1 (expectedNames_ne_nil_of_generated host s w.store g hg)
  rw [Action.runOn_bind_of_ok _ _ w₀ w₁ _ hwrite]
  rcases formatWith_cases host s hformat hnever paths hne w₁ with
    ⟨tool, f, w₂, hfind, hrun, hdecoding, hcalled⟩ | ⟨b, w₂, hrun, hb, hcalled⟩
  · rw [Action.runOn_bind_of_error _ _ w₁ w₂ _ hdecoding]
    exact .undecoded paths w₁.store tool f w₂ hexpected hfind hrun (by rw [hcalled, hcalls₁])
  · rw [Action.runOn_bind_of_ok _ _ w₁ w₂ b hrun,
      Action.runOn_bind_of_ok _ _ w₂ _ _ (Action.runOn_record _ _ _ w₂)]
    rw [hcalls₁] at hcalled
    refine .emitted paths w₁.store b _ ⟨?_, fun _ => hexpected, ?_⟩
    · exact hb.trans (and_iff_right rfl).symm
    · exact hcalled.imp (fun h => ⟨rfl, h⟩) fun h => ⟨.inr h.1, h.2⟩

end Formatting

section Beginning

variable (host : Host) (s : Settings) (hhere : Path.isAbsolute host.here = true)
variable (hdir : s.outputPath ≠ []) (store : Store) (g : Generated)
variable (hg : generated host s store = .ok g) (done rest : List Artifact) (a : Artifact)
variable (hartifacts : g.artifacts = done ++ a :: rest) (paths : List Text) (s' : Store)
variable (hdone : (Artifact.writeAll host s.outputPath false done).outcome store = (.ok paths, s'))
include hhere hdir hg hartifacts hdone

/-- An artifact whose turn comes finds the content of its file, and a place for its temporary file,
as they were at the beginning. -/
theorem found_as_before :
    (∀ bytes, s'.content? host.here (Path.join s.outputPath a.name) = some bytes ↔
      store.content? host.here (Path.join s.outputPath a.name) = some bytes) ∧
    (store.HasTemporaryPlace host.here (Path.join s.outputPath a.name) →
      s'.HasTemporaryPlace host.here (Path.join s.outputPath a.name)) := by
  have hplain := isPlain_of_generated host s store g hg
  have hnodup := nodup_map_name_of_generated host s store g hg
  rw [hartifacts] at hplain hnodup
  have ha := (hplain a (List.mem_append_right _ List.mem_cons_self)).isEntryName
  have hbefore := fun b hb => hplain b (List.mem_append_left _ hb)
  have hagree := Artifact.agreesBut_of_outcome_writeAll_eq_ok hhere hdir done
    (fun b hb => (hbefore b hb).isEntryName) paths store s' hdone
  rw [List.map_append, List.map_cons] at hnodup
  have hnew : a.name ∉ done.map Artifact.name := fun hmem =>
    (List.disjoint_of_nodup_append hnodup) hmem List.mem_cons_self
  constructor
  · exact hagree.content?_join_iff host.here s.outputPath a.name hdir ha hnew
  · exact Store.HasTemporaryPlace.congr store s' _ host.here s.outputPath a.name hhere hdir
      ha.slash_not_mem (List.forall_mem_map.2 fun b hb => (hbefore b hb).head?_ne) hagree

theorem unread_before (f : StoreFault)
    (h : host.content? (Path.join s.outputPath a.name) s' = .error f) :
    host.content? (Path.join s.outputPath a.name) store = .error f := by
  obtain ⟨hcontent, -⟩ :=
    found_as_before host s hhere hdir store g hg done rest a hartifacts paths s' hdone
  obtain ⟨⟨bytes, hbytes⟩, hrefusal⟩ := (host.content?_eq_error_iff _ _ _).1 h
  exact (host.content?_eq_error_iff _ _ _).2 ⟨⟨bytes, (hcontent bytes).1 hbytes⟩, hrefusal⟩

theorem isHeld_before (h : a.IsHeld .keep host.here s.outputPath s') :
    a.IsHeld .keep host.here s.outputPath store := by
  obtain ⟨hcontent, -⟩ :=
    found_as_before host s hhere hdir store g hg done rest a hartifacts paths s' hdone
  obtain ⟨data, hdata, hbytes⟩ := h
  exact ⟨data, hdata, (hcontent _).1 hbytes⟩

end Beginning

section Comparing

variable (host : Host) (s : Settings)

/-- What a run ends with after its last stage. -/
def concluded (inputFile : Text) :
    Except Failure RunResult × Workspace → Except Failure RunResult × Workspace
  | (.ok r, w) => (.ok r, w)
  | (.error f, w) => (conclude s inputFile f).runOn w

theorem exists_runOn_run_eq_concluded (hemit : s.noEmit = false) (w : Workspace) (p : Preparation)
    (g : Generated) (hread : readStages host s w.store = .ok (p, g)) :
    ∃ w₀, w₀.store = w.store ∧ w₀.calls = w.calls ∧
      (run host s).runOn w = concluded s g.inputFile ((emit host s p g).runOn w₀) := by
  obtain ⟨w₀, hstore, hcalls, hrun⟩ := exists_runOn_run_eq host s w
  refine ⟨w₀, hstore, hcalls, ?_⟩
  simp only [hread, lastStage, hemit, Bool.false_eq_true, if_false] at hrun
  rw [hrun]
  rcases (emit host s p g).runOn w₀ with ⟨f | r, w₁⟩ <;> rfl

variable (p : Preparation) (g : Generated) (w : Workspace)

theorem formatsOnce_of_emits (written : Except Failure (List Text) × Store)
    (ending : Except Failure RunResult × Workspace) (h : Emits host s p g w written ending)
    (r' : RunResult) (w₂ : Workspace) (hrun : concluded s g.inputFile ending = (.ok r', w₂)) :
    FormatsOnce host s w w₂ written.2 r' := by
  cases h with
  | unwritten e store w₃ hcalls =>
      have hresult := resultOf?_of_conclude_eq_ok s g.inputFile e w₃ w₂ r' hrun
      rw [concluded, runOn_conclude_of_resultOf? s g.inputFile e r' w₃ hresult] at hrun
      obtain ⟨-, rfl⟩ := Prod.mk.inj hrun
      refine formatsOnce_of_failed host s w _ r' ?_ ?_ ?_ store
      · exact (failed_of_resultOf? s g.inputFile e r' hresult).1
      · exact formatted_of_resultOf? s g.inputFile e r' hresult
      · exact hcalls
  | undecoded paths store tool f w₃ hpaths hfind hout hcalls =>
      cases resultOf?_of_conclude_eq_ok s g.inputFile _ w₃ w₂ r' hrun
  | emitted paths store formatted w₃ hformats =>
      obtain ⟨hr, rfl⟩ := Prod.mk.inj hrun
      obtain rfl := Except.ok.inj hr
      exact hformats

theorem callsOnce_of_emits (written : Except Failure (List Text) × Store)
    (ending : Except Failure RunResult × Workspace) (h : Emits host s p g w written ending) :
    CallsOnce host s w (concluded s g.inputFile ending).2 := by
  cases h with
  | unwritten e store w₂ hcalls => exact .inl ((calls_conclude s g.inputFile e w₂).trans hcalls)
  | undecoded paths store tool f w₂ hpaths hfind hrun hcalls =>
      exact .inr ⟨tool, hfind, hpaths ▸ hcalls⟩
  | emitted paths store formatted w₂ hformats =>
      rcases hformats.calls_cases with ⟨hok, tool, hfind, hcalls⟩ | ⟨-, hcalls⟩
      · rw [hformats.artifacts_eq hok] at hcalls
        exact .inr ⟨tool, hfind, hcalls⟩
      · exact .inl hcalls

section Parted

variable (w₀ w₁ : Workspace) (r : RunResult) (written : Except Failure (List Text))
variable (hplain : concluded { s with format := false } g.inputFile
  (written.map (emittedResult s p g · false), w₀) = (.ok r, w₁))
include hplain

/-- If both runs leave the same files, the run that formats ends like the other, or with output of
the formatter that is no text. -/
theorem follows_of_same (ending : Except Failure RunResult × Workspace)
    (h : Emits host s p g w (written, w₀.store) ending) :
    Follows host s w w₁ r (concluded s g.inputFile ending) := by
  cases h with
  | unwritten e store w₂ hcalls =>
      obtain ⟨hok, hformatted, w₃, hconclude, hcalls₃⟩ :=
        exists_runOn_conclude_withFormat s g.inputFile e w₀ w₁ w₂ r hplain
      rw [concluded, hconclude]
      exact .tolerated r w₃
        (tolerates_of_failed host s w w₁ w₃ r hok hformatted (hcalls₃.trans hcalls))
  | undecoded paths store tool f w₂ hpaths hfind hrun hcalls =>
      obtain ⟨hr, rfl⟩ := Prod.mk.inj hplain
      obtain rfl := Except.ok.inj hr
      exact .undecoded tool f w₂ rfl hfind hrun hcalls
  | emitted paths store formatted w₂ hformats =>
      obtain ⟨hr, rfl⟩ := Prod.mk.inj hplain
      obtain rfl := Except.ok.inj hr
      exact .tolerated _ w₂ ⟨hformats, rfl⟩

theorem failed_of_unread (f : StoreFault) (hwritten : written = .error (.ofStore f)) :
    r.ok = false ∧ r.errorKind = ProblemKind.generation.name := by
  subst hwritten
  have hresult := resultOf?_of_conclude_eq_ok _ g.inputFile _ w₀ w₁ r hplain
  obtain ⟨e, -, hkind⟩ := resultOf?_ofStore_eq_some _ g.inputFile f r hresult
  exact ⟨(failed_of_resultOf? _ g.inputFile _ r hresult).1, hkind⟩

end Parted

theorem exists_concluded_of_refused (e : SystemError) (store : Store)
    (ending : Except Failure RunResult × Workspace)
    (h : Emits host s p g w (.error (.system e), store) ending) :
    ∃ r' w₂, concluded s g.inputFile ending = (.ok r', w₂) ∧ r'.ok = false ∧
      r'.errorKind = ProblemKind.generation.name ∧ w₂.calls = w.calls := by
  cases h with
  | unwritten _ _ w₃ hcalls =>
      exact ⟨_, _, runOn_conclude_of_resultOf? s g.inputFile (.system e) _ w₃ rfl, rfl, rfl, hcalls⟩

/-- A run that cannot read what it needs ends in the same way with a format. -/
theorem follows_of_readStages_eq_error (f : Failure) (hread : readStages host s w.store = .error f)
    (w₁ : Workspace) (r : RunResult)
    (hrun : (run host { s with format := false }).runOn w = (.ok r, w₁)) :
    Follows host s w w₁ r ((run host s).runOn w) := by
  have hreads : readStages host { s with format := false } w.store = .error f := hread
  obtain ⟨w₀, -, -, hoff⟩ := exists_runOn_run_eq host { s with format := false } w
  obtain ⟨w₀', -, hcalls', hon⟩ := exists_runOn_run_eq host s w
  simp only [hoff, hreads] at hrun
  simp only [hon, hread]
  obtain ⟨hok, hformatted, w₂, hconclude, hcalls⟩ :=
    exists_runOn_conclude_withFormat s [] f w₀ w₁ w₀' r hrun
  rw [hconclude]
  exact .tolerated r w₂
    (tolerates_of_failed host s w w₁ w₂ r hok hformatted (hcalls.trans hcalls'))

/-- Two runs that write alike, or part at one of the artifacts: the one that formats follows the
other. -/
theorem follows_of_partsAll (hhere : Path.isAbsolute host.here = true)
    (hnameable : ∀ c ∈ host.here, Name.isNameable c = true)
    (hp : prepared host s w.store = .ok p) (hg : generated host s w.store = .ok g)
    (w₀ w₁ : Workspace) (r : RunResult) (written : Except Failure (List Text))
    (hplain : concluded { s with format := false } g.inputFile
      (written.map (emittedResult s p g · false), w₀) = (.ok r, w₁))
    (anew : Except Failure (List Text) × Store)
    (hanew : (Artifact.writeAll host s.outputPath false g.artifacts).outcome w.store = anew)
    (hparts : Artifact.PartsAll host s.outputPath g.artifacts w.store (written, w₀.store) anew)
    (ending : Except Failure RunResult × Workspace) (hemits : Emits host s p g w anew ending) :
    Follows host s w w₁ r (concluded s g.inputFile ending) := by
  have hgenerate : ((generate host s).runOn w).1 = .ok g :=
    ((reads_generate host s).fst_runOn _ _ w).trans hg
  have hdir := outputPath_ne_nil_of_prepared host s w.store p hp
  cases hparts with
  | same => exact follows_of_same host s p g w w₀ w₁ r written hplain _ hemits
  | unread done rest a paths _ f anew has hdone hreading =>
      obtain ⟨hok, hkind⟩ := failed_of_unread s p g w₀ w₁ r _ hplain f rfl
      refine .unread g a f _ hgenerate (has ▸ List.mem_append_right _ List.mem_cons_self)
        (unread_before host s hhere hdir w.store g hg done rest a has paths _ hdone f hreading)
        hok hkind (fun r' w₂ hr' => ?_) (callsOnce_of_emits host s p g w _ _ hemits)
      rw [writtenAnew, hanew]
      exact formatsOnce_of_emits host s p g w _ _ hemits r' w₂ hr'
  | refused done rest a paths s' data f _ has hdone hheld hreplace hcannot =>
      obtain ⟨-, hplace⟩ :=
        found_as_before host s hhere hdir w.store g hg done rest a has paths s' hdone
      obtain ⟨l, -, -, hl, -⟩ := (Store.isFile_iff _ _ _).1 hheld.isFile
      obtain ⟨e, rfl⟩ := host.exists_system_of_replace_eq_error _ s' hnameable
        ((Store.locate_eq_ok_iff _ _ _ _).1 hl).1 data f s' hreplace
      obtain ⟨r', w₂, hr', hok, hkind, hcalls⟩ :=
        exists_concluded_of_refused host s p g w e s' _ hemits
      rw [hr']
      exact .refused g a r' w₂ hgenerate (has ▸ List.mem_append_right _ List.mem_cons_self)
        (isHeld_before host s hhere hdir w.store g hg done rest a has paths s' hdone hheld)
        (fun h => hcannot ⟨hplace h.1, h.2⟩) hok hkind hcalls

/-- A run that is asked for a format follows the same run without one that gives a result, if the
formatter is not interrupted: it ends in the same way but for the formatting, unless the output of
the formatter is no text, or an artifact is there already but cannot be written anew, or a file may
not be read. The formatter has been called at most once, with the files that have been written. -/
theorem formatted_run_follows_plain_run (hformat : s.format = true) (hemit : s.noEmit = false)
    (hnever : NeverInterrupted host s) (hhere : Path.isAbsolute host.here = true)
    (hnameable : ∀ c ∈ host.here, Name.isNameable c = true) (hs : w.store.IsTree) (w₁ : Workspace)
    (r : RunResult) (hrun : (run host { s with format := false }).runOn w = (.ok r, w₁)) :
    Follows host s w w₁ r ((run host s).runOn w) := by
  cases hread : readStages host s w.store with
  | error f => exact follows_of_readStages_eq_error host s w f hread w₁ r hrun
  | ok pg =>
      obtain ⟨p, g⟩ := pg
      obtain ⟨hp, hg⟩ := (readStages_eq_ok_iff _ _ _ _ _).1 hread
      obtain ⟨w₂, hstore, -, hoff⟩ :=
        exists_runOn_run_eq_concluded host { s with format := false } hemit w p g hread
      obtain ⟨w₂', hstore', hcalls', hon⟩ := exists_runOn_run_eq_concluded host s hemit w p g hread
      rcases hplain : (emit host { s with format := false } p g).runOn w₂ with ⟨result, w₀⟩
      obtain ⟨written, w₃, hwrite, rfl, hstore₀⟩ :=
        exists_of_emit_of_not_format host { s with format := false } p g rfl w₂ w₀ result hplain
      rw [hoff, hplain] at hrun
      rw [hon]
      -- The two runs write alike, or they part at one of the artifacts.
      have hparts := Artifact.partsAll_writeAll s.outputPath hhere g.artifacts w.store hs
      rw [← hstore, (Artifact.followsFiles_writeAll host s.outputPath true g.artifacts).outcome_eq
        w₂ w₃ written hwrite, ← hstore₀, hstore] at hparts
      exact follows_of_partsAll host s p g w hhere hnameable hp hg w₀ w₁ r written hrun _ rfl hparts
        _ (emits_emit host s hformat hnever hhere p g w w₂' hg hstore' hcalls')

end Comparing

/-- A host with a formatter that adds a line to every script, and then ends as given. -/
def formattingHost (outcome : ToolOutcome) : Host :=
  { bareHost with
    tools := [(OptionName.defaultFormatter,
      Tool.appending "/usr/bin/prettier" "// formatted\n" 0o022 outcome)] }

def formattingSettings : Settings := { bareSettings with format := true }

theorem formattingHost_outcome_cases (outcome : ToolOutcome) (tool : Tool) (arguments : List Text)
    (store : Store)
    (h : Formatter.find (formattingHost outcome) (some formattingSettings.formatter) = .ok tool) :
    (tool.run (formattingHost outcome).here arguments store).1 = outcome ∨
      ∃ e, (tool.run (formattingHost outcome).here arguments store).1 = .notStarted e := by
  have hfind : Formatter.find (formattingHost outcome) (some formattingSettings.formatter) =
      .ok (Tool.appending "/usr/bin/prettier" "// formatted\n" 0o022 outcome) := rfl
  obtain rfl := Except.ok.inj (hfind.symm.trans h)
  unfold Tool.appending
  dsimp only
  split
  · exact .inr ⟨_, rfl⟩
  · exact .inl rfl

def failingHost : Host := formattingHost (.finished 2 [] "syntax error")

def writtenWorkspace : Workspace :=
  ((run failingHost { formattingSettings with format := false }).runOn nestedWorkspace).2

theorem isTree_writtenWorkspace : writtenWorkspace.store.IsTree := by
  obtain ⟨r, hrun, hok⟩ := Action.exists_runOn_eq_of_map_toOption RunResult.ok
    (run failingHost { formattingSettings with format := false }) nestedWorkspace true
    (by decide +kernel)
  exact isTree_of_emitting_run failingHost { formattingSettings with format := false } _
    (formatsBy_keep _ _ rfl) rfl rfl nestedWorkspace _ r hrun hok isTree_nestedWorkspace

/-- Files that are there already are written anew and given to the formatter, which fails; and
nothing of that can be seen in the result. -/
theorem formatted_run_follows_plain_run_failing :
    ∃ r w₁ w₂,
      (run failingHost { formattingSettings with format := false }).runOn writtenWorkspace =
        (.ok r, w₁) ∧ r.ok = true ∧ w₁.calls = [] ∧
      (run failingHost formattingSettings).runOn writtenWorkspace = (.ok r, w₂) ∧
      w₂.calls = [Formatter.command "/usr/bin/prettier" r.artifacts] := by
  obtain ⟨r, hrun, hok⟩ := Action.exists_runOn_eq_of_map_toOption RunResult.ok
    (run failingHost { formattingSettings with format := false }) writtenWorkspace true
    (by decide +kernel)
  obtain ⟨hcalls, hcalls₁, hplaces⟩ : writtenWorkspace.calls = [] ∧
      ((run failingHost { formattingSettings with format := false }).runOn
        writtenWorkspace).2.calls = [] ∧
      ∀ name ∈ OutputMode.expectedNames formattingSettings.outputMode,
        writtenWorkspace.store.HasTemporaryPlace failingHost.here
          (Path.join formattingSettings.outputPath name) := by
    decide +kernel
  have hnever : NeverInterrupted failingHost formattingSettings := by
    intro _ tool hfind arguments store hinterrupted
    rcases formattingHost_outcome_cases _ tool arguments store hfind with h | ⟨e, h⟩
    · cases h.symm.trans hinterrupted
    · cases h.symm.trans hinterrupted
  have hfollows := formatted_run_follows_plain_run failingHost formattingSettings writtenWorkspace
    rfl rfl hnever rfl (by decide) isTree_writtenWorkspace _ r hrun
  generalize (run failingHost formattingSettings).runOn writtenWorkspace = ending at hfollows ⊢
  cases hfollows with
  | tolerated r' w₂ htolerates =>
      have hformatted : r'.formatted = false := by
        rw [← Bool.not_eq_true, htolerates.formatted_iff]
        rintro ⟨-, tool, output, errors, hfind, hrun⟩
        rcases formattingHost_outcome_cases _ tool _ _ hfind with h | ⟨e, h⟩
        · cases h.symm.trans hrun
        · cases h.symm.trans hrun
      obtain rfl : r' = r := by
        rw [← htolerates.same, ← hformatted]
      refine ⟨r', _, w₂, hrun, hok, hcalls₁, rfl, ?_⟩
      rcases htolerates.calls_cases with ⟨-, tool, hfind, hcalled⟩ | ⟨hfailed | hidle, -⟩
      · obtain rfl := Except.ok.inj hfind
        rw [hcalled, hcalls]
        rfl
      · exact absurd (hok.symm.trans hfailed) (by decide)
      · exact absurd rfl (hidle _)
  | undecoded tool f w₂ _ hfind hout =>
      rcases formattingHost_outcome_cases _ tool _ _ hfind with h | ⟨e, h⟩
      · cases h.symm.trans (congrArg Prod.fst hout)
      · cases h.symm.trans (congrArg Prod.fst hout)
  | refused g a r' w₂ hg ha _ hcannot =>
      have hgenerated := (reads_generate failingHost formattingSettings).fst_runOn _ _
        writtenWorkspace
      rw [hg] at hgenerated
      refine absurd ⟨hplaces a.name ?_, rfl⟩ hcannot
      rw [← map_name_of_generated failingHost formattingSettings _ g hgenerated.symm]
      exact List.mem_map_of_mem ha
  | unread g a f _ _ _ _ hfailed => exact absurd (hok.symm.trans hfailed) (by decide)

/-- Asking for a format can make a run fail that succeeds without one: the formatter exits with zero
but has printed a byte that is no text, or the artifact is there already and its path is short
enough, but not that of its temporary file. -/
theorem formatting_can_be_fatal :
    (∃ r w₁ f w₂,
      (run (formattingHost (.exited 0 [] [0xff])) { formattingSettings with format := false }).runOn
        nestedWorkspace = (.ok r, w₁) ∧ r.ok = true ∧
      (run (formattingHost (.exited 0 [] [0xff])) formattingSettings).runOn nestedWorkspace =
        (.error (.decoding f), w₂)) ∧
    ∃ r w₁ r' w₂, (run bareHost { deepSettings with format := false }).runOn deepWorkspace =
        (.ok r, w₁) ∧ r.ok = true ∧
      (run bareHost deepSettings).runOn deepWorkspace = (.ok r', w₂) ∧ r'.ok = false := by
  constructor
  · obtain ⟨r, hrun, hok⟩ := Action.exists_runOn_eq_of_map_toOption RunResult.ok
      (run (formattingHost (.exited 0 [] [0xff])) { formattingSettings with format := false })
      nestedWorkspace true (by decide +kernel)
    have hended : error? ((run (formattingHost (.exited 0 [] [0xff])) formattingSettings).runOn
        nestedWorkspace).1 = some (.decoding ⟨0, 0, 0xff, .startByte⟩) := by
      decide +kernel
    exact ⟨r, _, _, _, hrun, hok, Prod.ext (eq_error_of_error?_eq_some _ _ hended) rfl⟩
  · obtain ⟨r, hrun, hok⟩ := Action.exists_runOn_eq_of_map_toOption RunResult.ok
      (run bareHost { deepSettings with format := false }) deepWorkspace true (by decide +kernel)
    obtain ⟨r', hrun', hfailed⟩ := Action.exists_runOn_eq_of_map_toOption RunResult.ok
      (run bareHost deepSettings) deepWorkspace false (by decide +kernel)
    exact ⟨r, _, r', _, hrun, hok, hrun', hfailed⟩

end Run

end LocaleKeys
