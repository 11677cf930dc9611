import LocaleKeys.Proofs.CommandLine.Telling
import LocaleKeys.Proofs.Log.Upkeep
import LocaleKeys.Proofs.Run.Interruption
import LocaleKeys.Proofs.Run.Journal

/-!
# How a command ends

A command settles its options before anything else. A problem with them ends it with exit code 1,
and a command that is to print them ends with 0; in both cases nothing has run, and the files are as
they were but for the log file. Otherwise the command runs, and ends with 130 if the formatter is
interrupted, and else with the code of the result (`Session.exit_and_streams`). There are four
courses that a command can take once its log is set up (`Session.course_perform`), and setting the
log up and ending it adds nothing to what is printed but notices at the start.
-/

namespace LocaleKeys

open Workspace (Gains)

namespace Logging

def logAll (records : List Record) (l : Logging) : Logging := records.foldl (fun l r => l.log r) l

theorem listener_logAll (records : List Record) (l : Logging) :
    (l.logAll records).listener = l.listener := by
  induction records generalizing l with
  | nil => rfl
  | cons r records ih => exact (ih (l.log r)).trans (listener_log r l)

theorem notices_logAll (records : List Record) (l : Logging) :
    (l.logAll records).notices = l.notices := by
  induction records generalizing l with
  | nil => rfl
  | cons r records ih => exact (ih (l.log r)).trans (notices_log r l)

theorem notices_shutdown (here : Text) (mask : Mode) (time : Text) (l : Logging) (s : Store) :
    (l.shutdown here mask time s).1.notices = l.notices := notices_stop here mask time l s

end Logging

namespace FileOptions

variable (host : Host) (sources : List Text) (hsource : Source.optionFile ∈ sources)
include hsource

theorem consults_load (path : Text) : (load host path).Consults sources :=
  (Action.consults_ofStore _).bind fun f =>
    (Action.consults_record _ _ _ hsource).bind fun _ => Action.consults_pure f

theorem consults_find (root : Text) : (find host root).Consults sources := by
  refine (Action.consults_inspect _).bind fun found => ?_
  cases found with
  | none => exact Action.consults_pure none
  | some path =>
      exact (Action.consults_record _ _ _ hsource).bind fun _ => Action.consults_pure _

theorem consults_loadProject (root : Text) (named : Option Text) :
    (loadProject host root named).Consults sources := by
  have hload : ∀ path, (do return (← load host path, some path) :
      Action (FileOptions × Option Text)).Consults sources := fun path =>
    (consults_load host sources hsource path).bind fun f => Action.consults_pure _
  have hsearch : (loadProject host root none).Consults sources := by
    refine (consults_find host sources hsource root).bind fun found => ?_
    cases found with
    | none => exact (Action.consults_record _ _ _ hsource).bind fun _ => Action.consults_pure _
    | some path => exact hload path
  rcases named with _ | _ | ⟨c, t⟩
  · exact hsearch
  · exact hsearch
  · refine (Action.consults_inspect _).bind fun there => ?_
    split
    · exact hload _
    · exact Action.consults_throw _

end FileOptions

namespace Session

/-- The sources of the records of a command that has not run. -/
def settlingSources : List Text := [Source.commandLine, Source.optionFile]

variable (host : Host) (a : Arguments)

theorem consults_settings (root : Text) : (settings host root a).Consults settlingSources :=
  (FileOptions.consults_loadProject host settlingSources (by decide) root a.configPath).bind
    fun _ => (Action.consults_ofStore _).bind fun _ => Action.consults_pure _

/-- What the options of a command come to with the files as they are: settings, with the path of the
option file and the warnings about them, or why there are none. -/
def settled (s : Store) : Except Failure (Settings × Option Text × List Text) :=
  ((settings host (projectRoot host a) a).outcome s).1

/-- How a command whose log is set up comes to what it ends with: there is a problem with its
options, settling them fails in another way, they are printed, or it runs with them. -/
inductive Course (c : Catalogue) (w : Workspace) (ending : Except Failure Ending × Workspace) : Prop
  | refused (p : Problem) (w₁ : Workspace) (hsettled : settled host a w.store = .error (.problem p))
      (hgains : Gains settlingSources w w₁)
      (hending : ending = ((failureText c p.message).map fun text =>
        { exit := 1, printed := { errors := printLine text } }, w₁))
  | broken (f : Failure) (w₁ : Workspace) (hsettled : settled host a w.store = .error f)
      (hf : ∀ p, f ≠ .problem p) (hending : ending = (.error f, w₁))
  | dumped (s : Settings) (path : Option Text) (warnings : List Text) (w₁ : Workspace)
      (hsettled : settled host a w.store = .ok (s, path, warnings)) (hdump : a.dumpConfig = true)
      (hgains : Gains settlingSources w w₁)
      (hending : ending =
        (.ok { exit := 0, printed := { output := printLine (dump s path).print } }, w₁))
  | ran (s : Settings) (path : Option Text) (warnings : List Text) (w₁ : Workspace)
      (hsettled : settled host a w.store = .ok (s, path, warnings)) (hdump : a.dumpConfig = false)
      (hgains : Gains settlingSources w w₁) (hending : ending = (runWith host c a s).runOn w₁)

/-- Every command takes one of the courses. -/
theorem course_perform (c : Catalogue) (w : Workspace) :
    Course host a c w ((perform host c a).runOn w) := by
  obtain ⟨w₀, hrecord, hroot⟩ : ∃ w₀,
      (Action.record .debug Source.commandLine ("Project root: " ++ projectRoot host a)).runOn w =
        (.ok (), w₀) ∧ Gains settlingSources w w₀ :=
    ⟨_, rfl, Action.leads_gains_record _ _ _ _ (by decide) w⟩
  obtain ⟨w₁, hrun, hsettling⟩ := (consults_settings host a (projectRoot host a)).exists_runOn_eq w₀
  have hgains := hroot.trans hsettling
  rw [perform, Action.runOn_bind_of_ok _ _ w w₀ () hrecord,
    Action.runOn_bind_of_ok _ _ w₀ w₁ (settled host a w.store)
      (by rw [Action.runOn_capture, hrun, hroot.store_eq]; rfl)]
  cases hsettled : settled host a w.store with
  | error f =>
      by_cases hf : ∀ p, f ≠ .problem p
      · refine .broken f w₁ hsettled hf ?_
        cases f
        case problem p => exact absurd rfl (hf p)
        all_goals rfl
      · obtain ⟨p, rfl⟩ : ∃ p, f = .problem p := by simpa using hf
        refine .refused p w₁ hsettled hgains ?_
        refine (Action.runOn_bind _ _ w₁).trans ?_
        rw [show (Action.ofStore fun _ => failureText c p.message).runOn w₁ =
          (failureText c p.message, w₁) from rfl]
        cases failureText c p.message <;> rfl
  | ok x =>
      obtain ⟨s, path, warnings⟩ := x
      obtain ⟨w₂, hwarn, hwarned⟩ := Action.exists_runOn_forM_record settlingSources
        .warning Source.commandLine (by decide) ("Configuration Constraint: " ++ ·) warnings w₁
      simp only
      rw [Action.runOn_bind_of_ok _ _ w₁ w₂ () hwarn]
      cases hdump : a.dumpConfig with
      | true => exact .dumped s path warnings w₂ hsettled hdump (hgains.trans hwarned) rfl
      | false => exact .ran s path warnings w₂ hsettled hdump (hgains.trans hwarned) rfl

section Running

variable (s : Settings) (w w₁ : Workspace)

theorem exists_runWith_of_interrupted (c : Catalogue)
    (h : (run host s).runOn w = (.error .interrupted, w₁)) :
    ∃ e w₂, (runWith host c a s).runOn w = (.ok e, w₂) ∧ e.exit = exitInterrupted := by
  rw [runWith, Action.runOn_bind_of_ok _ _ w w₁ _ (by rw [Action.runOn_capture, h])]
  exact ⟨_, _, rfl, rfl⟩

theorem runOn_runWith_of_error (c : Catalogue) (f : Failure) (hf : f ≠ .interrupted)
    (h : (run host s).runOn w = (.error f, w₁)) :
    (runWith host c a s).runOn w = (.error f, w₁) := by
  rw [runWith, Action.runOn_bind_of_ok _ _ w w₁ _ (by rw [Action.runOn_capture, h])]
  cases f
  case interrupted => exact absurd rfl hf
  all_goals rfl

/-- What a command tells of the result of its run, after some notices: it ends with the code of the
result, it prints no error for a success, and for a failure it prints one line, unless it is to
print the result as a document. -/
structure Tells (notices : Text) (r : RunResult) (exit : Nat) (printed : Printed) : Prop where
  exit_eq : exit = if r.ok then 0 else if r.driftDetected then 3 else 1
  success : r.ok = true → printed.errors = notices
  failure : r.ok = false → a.json = false → printed = ⟨[], notices ++ failureLine r.error⟩

theorem exists_runWith_of_ok (r : RunResult) (h : (run host s).runOn w = (.ok r, w₁)) :
    ∃ e, (runWith host .english a s).runOn w = (.ok e, w₁) ∧ Tells a [] r e.exit e.printed := by
  rw [runWith, Action.runOn_bind_of_ok _ _ w w₁ _ (by rw [Action.runOn_capture, h])]
  simp only
  cases hjson : a.json with
  | true => exact ⟨_, rfl, rfl, fun _ => rfl, fun _ h => nomatch hjson.symm.trans h⟩
  | false =>
      obtain ⟨printed, hsummary, hsuccess, hfailure⟩ := exists_summary r
      refine ⟨⟨r.exitCode, printed⟩, ?_, rfl, hsuccess, fun hok _ => hfailure hok⟩
      rw [if_neg Bool.false_ne_true, Action.runOn_bind_of_ok _ _ w₁ w₁ printed (by
        rw [← hsummary]; rfl)]
      rfl

variable {a} in
theorem Tells.after {r : RunResult} {exit : Nat} {printed : Printed}
    (h : Tells a [] r exit printed) (notices : Text) :
    Tells a notices r exit { printed with errors := notices ++ printed.errors } where
  exit_eq := h.exit_eq
  success hok := by rw [h.success hok, List.append_nil]
  failure hok hjson := by rw [h.failure hok hjson]; rfl

/-- A command that runs and comes to an end does so with 130 if the formatter is interrupted, and
tells of its result if not. -/
theorem exit_of_runWith (e : Ending)
    (h : (runWith host .english a s).runOn w = (.ok e, w₁)) :
    (e.exit = exitInterrupted ↔ Run.IsInterrupted host s w.store) ∧
      (e.exit ≠ exitInterrupted → ∃ r w₂, (run host s).runOn w = (.ok r, w₂) ∧
        Tells a [] r e.exit e.printed) := by
  rw [← Run.interrupted_run_iff]
  rcases hrun : (run host s).runOn w with ⟨f | r, w₂⟩
  · by_cases hf : f = .interrupted
    · subst hf
      obtain ⟨e', w₃, hending, hexit⟩ := exists_runWith_of_interrupted host a s w w₂ .english hrun
      obtain rfl := Except.ok.inj (Prod.mk.inj (h.symm.trans hending)).1
      exact ⟨iff_of_true hexit rfl, fun hne => absurd hexit hne⟩
    · have hending := runOn_runWith_of_error host a s w w₂ .english f hf hrun
      exact nomatch (Prod.mk.inj (h.symm.trans hending)).1
  · obtain ⟨e', hending, htells⟩ := exists_runWith_of_ok host a s w w₂ r hrun
    obtain rfl := Except.ok.inj (Prod.mk.inj (h.symm.trans hending)).1
    have hexit : e.exit ≠ exitInterrupted := by
      rw [htells.exit_eq]
      cases r.ok <;> cases r.driftDetected <;> decide
    exact ⟨iff_of_false hexit nofun, fun _ => ⟨r, w₂, rfl, htells⟩⟩

end Running

/-- Whether a command has left everything as it was, but for its log file and for records that it
makes when it settles its options. A run begins with a record that is none of them. -/
structure LeavesNoRun (w w' : Workspace) : Prop where
  files : match a.logFile with
    | none | some [] => w'.store = w.store
    | some name => LogFile.ChangesOnly host.umask (Path.absolute host.here name) 2 w.store w'.store
  records : Gains settlingSources w { w' with store := w.store }

section Executing

variable (time : Text) (c : Catalogue) (w w₁ : Workspace)

def printedAfter (notices : Text) (ended : Except Failure Ending) : Printed :=
  match ended with
  | .ok e => { e.printed with errors := notices ++ e.printed.errors }
  | .error _ => { errors := notices }

theorem execute_of_unconfigured (f : Failure) (l : Logging) (s : Store)
    (h : Logging.configure host.here host.umask time (logOptions a) false {} w.store =
      (.error f, l, s)) :
    (execute host time c a w).1.ending = .error f := by
  rw [execute, h]

/-- Once its log is set up, a command takes its course, and ending the log changes nothing but the
log file. -/
theorem execute_eq (l : Logging) (s : Store) (ended : Except Failure Ending)
    (h : Logging.configure host.here host.umask time (logOptions a) false {} w.store =
      (.ok (), l, s))
    (hperform : (perform host c a).runOn { w with store := s } = (ended, w₁)) :
    execute host time c a w =
      let (l', s') := (l.logAll (w₁.journal.drop w.journal.length)).shutdown host.here host.umask
        time w₁.store
      (⟨ended.map (·.exit), printedAfter l.notices ended, l'.console⟩,
        { w₁ with store := s' }) := by
  have hnotices : ((l.logAll (w₁.journal.drop w.journal.length)).shutdown host.here host.umask
      time w₁.store).1.notices = l.notices := by
    rw [Logging.notices_shutdown, Logging.notices_logAll]
  rw [execute, h]
  simp only [hperform]
  rw [Logging.logAll] at hnotices ⊢
  rw [hnotices]
  cases ended with
  | ok e => rfl
  | error f => simp only [printedAfter, List.append_nil]

variable (hhere : Path.isAbsolute host.here = true) (hw : w.store.IsTree)
include hhere hw

/-- Setting up the log and ending it changes the log file only, and so does a command that has not
run. -/
theorem leavesNoRun_of_gains (l l' : Logging) (s : Store)
    (h : Logging.configure host.here host.umask time (logOptions a) false {} w.store =
      (.ok (), l, s))
    (hl : l'.listener = l.listener) (hgains : Gains settlingSources { w with store := s } w₁) :
    LeavesNoRun host a w
      { w₁ with store := (l'.shutdown host.here host.umask time w₁.store).2 } := by
  obtain ⟨records, rfl, hrecords⟩ := hgains
  refine ⟨?_, records, rfl, hrecords⟩
  split
  · next hfile =>
      exact Logging.store_of_session_of_no_file host.here host.umask time (logOptions a)
        (.inl hfile) _ s l l' h hl
  · next hfile =>
      exact Logging.store_of_session_of_no_file host.here host.umask time (logOptions a)
        (.inr hfile) _ s l l' h hl
  · next _ name hne hfile =>
      exact Logging.changesOnly_session host.here host.umask time (logOptions a) hhere name hfile
        hne 2 rfl _ s hw l l' h hl

/-- What a command ends with and prints. Its options come to a problem, and it ends with 1 and tells
of it; or they come to settings, and it prints them and ends with 0 if it is to, and otherwise runs
with them. Where it does not run, it leaves nothing behind but its log. -/
theorem exit_and_streams (words : List Text) (hwords : Arguments.read words = .ok a)
    (w' : Workspace) (report : Report) (exit : Nat)
    (h : command host time .english words w = (report, w')) (hexit : report.ending = .ok exit) :
    ∃ l s, Logging.configure host.here host.umask time (logOptions a) false {} w.store =
        (.ok (), l, s) ∧
      ((∃ p, settled host a s = .error (.problem p) ∧ exit = 1 ∧
          report.printed = ⟨[], l.notices ++ failureLine p.message⟩ ∧ LeavesNoRun host a w w') ∨
        ∃ settings path warnings, settled host a s = .ok (settings, path, warnings) ∧
          (a.dumpConfig = true → exit = 0 ∧
            report.printed = ⟨printLine (dump settings path).print, l.notices⟩ ∧
              LeavesNoRun host a w w') ∧
          (a.dumpConfig = false → (exit = 130 ↔ Run.IsInterrupted host settings s) ∧
            (exit ≠ 130 → ∃ r w₁ w₂, w₁.store = s ∧
              (run host settings).runOn w₁ = (.ok r, w₂) ∧
                Tells a l.notices r exit report.printed))) := by
  have hexecute : execute host time .english a w = (report, w') := by
    rw [command, hwords] at h
    exact h
  rcases hconfigure : Logging.configure host.here host.umask time (logOptions a) false {}
    w.store with
    ⟨f | u, l, s⟩
  · have hunset := execute_of_unconfigured host a time .english w f l s hconfigure
    rw [hexecute, hexit] at hunset
    exact nomatch hunset
  refine ⟨l, s, rfl, ?_⟩
  have hcourse := course_perform host a .english { w with store := s }
  rcases hperform : (perform host .english a).runOn { w with store := s } with ⟨ended, w₁⟩
  rw [hperform] at hcourse
  obtain ⟨rfl, rfl⟩ := Prod.mk.inj
    (hexecute.symm.trans (execute_eq host a time .english w w₁ l s ended hconfigure hperform))
  have hquiet := leavesNoRun_of_gains host a time w w₁ hhere hw l
    (l.logAll (w₁.journal.drop w.journal.length)) s hconfigure (Logging.listener_logAll _ l)
  cases hcourse with
  | refused p w₂ hsettled hgains hending =>
      rw [failureText_english] at hending
      obtain ⟨rfl, rfl⟩ := Prod.mk.inj hending
      exact .inl ⟨p, hsettled, (Except.ok.inj hexit).symm, rfl, hquiet hgains⟩
  | broken f w₂ hsettled hf hending =>
      obtain ⟨rfl, rfl⟩ := Prod.mk.inj hending
      exact nomatch hexit
  | dumped settings path warnings w₂ hsettled hdump hgains hending =>
      obtain ⟨rfl, rfl⟩ := Prod.mk.inj hending
      refine .inr ⟨settings, path, warnings, hsettled, fun _ => ?_, fun hrun => ?_⟩
      · refine ⟨(Except.ok.inj hexit).symm, ?_, hquiet hgains⟩
        simp only [printedAfter, List.append_nil]
      · rw [hdump] at hrun
        exact nomatch hrun
  | ran settings path warnings w₂ hsettled hdump hgains hending =>
      refine .inr ⟨settings, path, warnings, hsettled, fun hprint => ?_, fun _ => ?_⟩
      · rw [hdump] at hprint
        exact nomatch hprint
      · cases ended with
        | error f => exact nomatch hexit
        | ok e =>
            obtain rfl : e.exit = exit := Except.ok.inj hexit
            obtain ⟨hinterrupted, htold⟩ := exit_of_runWith host a settings w₂ w₁ e hending.symm
            rw [hgains.store_eq] at hinterrupted
            refine ⟨hinterrupted, fun hne => ?_⟩
            obtain ⟨r, w₃, hrun, htells⟩ := htold hne
            exact ⟨r, w₂, w₃, hgains.store_eq, hrun, htells.after l.notices⟩

end Executing

open Run (nestedWorkspace isTree_nestedWorkspace)

def bracedWords : List Text := ["--input", "\x7b0\x7d", "--output", "/out"]

def bracedArguments : Arguments := { inputPath := some "\x7b0\x7d", outputPath := some "/out" }

theorem exit_and_streams_braced :
    Arguments.read bracedWords = .ok bracedArguments ∧
      (command bareHost [] .english bracedWords nestedWorkspace).1.ending = .ok 1 ∧
      ∃ settings r l s w₁ w₂,
        Logging.configure bareHost.here bareHost.umask [] (logOptions bracedArguments) false {}
          nestedWorkspace.store = (.ok (), l, s) ∧ w₁.store = s ∧
        (run bareHost settings).runOn w₁ = (.ok r, w₂) ∧
        Tells bracedArguments l.notices r 1
          ⟨[], "❌ Translation directory '/\x7b0\x7d' does not exist.\n"⟩ := by
  have hwords : Arguments.read bracedWords = .ok bracedArguments := by decide +kernel
  have hexit : (command bareHost [] .english bracedWords nestedWorkspace).1.ending = .ok 1 := by
    decide +kernel
  have hprinted : (command bareHost [] .english bracedWords nestedWorkspace).1.printed =
      ⟨[], "❌ Translation directory '/\x7b0\x7d' does not exist.\n"⟩ := by decide +kernel
  obtain ⟨x, hsettled, -⟩ := exists_of_map_toOption_eq_some (fun _ => ())
    (settled bareHost bracedArguments nestedWorkspace.store) () (by decide +kernel)
  obtain ⟨l, s, hconfigure, h⟩ := exit_and_streams bareHost bracedArguments [] nestedWorkspace rfl
    isTree_nestedWorkspace bracedWords hwords
    (command bareHost [] .english bracedWords nestedWorkspace).2
    (command bareHost [] .english bracedWords nestedWorkspace).1 1 rfl hexit
  obtain rfl : nestedWorkspace.store = s := congrArg (·.2.2) hconfigure
  rcases h with ⟨p, hproblem, -⟩ | ⟨settings, path, warnings, -, -, hran⟩
  · exact nomatch hsettled.symm.trans hproblem
  · obtain ⟨r, w₁, w₂, hstore, hrun, htells⟩ := (hran rfl).2 (by decide)
    rw [hprinted] at htells
    exact ⟨hwords, hexit, settings, r, l, _, w₁, w₂, hconfigure, hstore, hrun, htells⟩

end Session

end LocaleKeys
