import LocaleKeys.Proofs.Artifact.Staging
import LocaleKeys.Run.Generation

/-!
# What a formatter does in a run

Nothing is known of a formatter but what it promises: that it touches only the files it is given,
and that what it makes of a file depends on the name and the bytes of that file (`FormatsInPlace`).
Whether it is asked for, is installed, starts and reports success then makes no difference to what
follows: formatting comes to an end, and there is one formatting that it carries out
(`exists_formatsBy`). The formatter that appends a text to scripts keeps the promise
(`formatsInPlace_appending`).
-/

namespace LocaleKeys

namespace ToolOutcome

/-- What the end of a formatter comes to: whether it has formatted the files. -/
def verdict : ToolOutcome → Except Failure Bool
  | interrupted => .error .interrupted
  | notStarted _ => .ok false
  | undecoded f => .error (.decoding f)
  | finished exit _ _ => .ok (decide (exit = 0))

/-- Only an interruption and output that is no text are passed on. -/
theorem verdict_eq_error_iff (o : ToolOutcome) (e : Failure) :
    o.verdict = .error e ↔
      (o = .interrupted ∧ e = .interrupted) ∨ ∃ f, o = .undecoded f ∧ e = .decoding f := by
  cases o with
  | interrupted => simp [verdict, eq_comm]
  | undecoded f => simp [verdict, eq_comm]
  | notStarted e => simp [verdict]
  | finished exit output errors => simp [verdict]

theorem verdict_eq_interrupted_iff (o : ToolOutcome) :
    o.verdict = .error .interrupted ↔ o = .interrupted := by
  cases o with
  | interrupted => exact iff_of_true rfl rfl
  | notStarted e => exact iff_of_false nofun nofun
  | undecoded f => exact iff_of_false nofun nofun
  | finished exit output errors => exact iff_of_false nofun nofun

theorem verdict_eq_true_iff (o : ToolOutcome) :
    o.verdict = .ok true ↔ ∃ output errors, o = .finished 0 output errors := by
  cases o with
  | interrupted => exact iff_of_false nofun nofun
  | notStarted e => exact iff_of_false nofun nofun
  | undecoded f => exact iff_of_false nofun nofun
  | finished exit output errors => simp [verdict]

end ToolOutcome

namespace Tool

/-- Whether a formatter touches only the files it is given, makes of each of them what the
formatting says of its name and bytes, and comes to an end that can be told. -/
def FormatsInPlace (t : Tool) (here : Text) (f : Formatting) : Prop :=
  ∀ (s : Store) (paths : List Text), s.LeadToFiles here paths →
    (∃ b, (t.run here (Formatter.command t.path paths) s).1.verdict = .ok b) ∧
      Store.Formatted f here paths s (t.run here (Formatter.command t.path paths) s).2

/-- Whether a formatter touches only the files it is given, whatever it makes of them and however it
ends. -/
def TouchesOnly (t : Tool) (here : Text) : Prop :=
  ∀ (s : Store) (paths : List Text), s.LeadToFiles here paths →
    ∀ l, (∀ p ∈ paths, s.locate here p ≠ .ok l) →
      (t.run here (Formatter.command t.path paths) s).2.get? l = s.get? l

theorem FormatsInPlace.touchesOnly {t : Tool} {here : Text} {f : Formatting}
    (h : t.FormatsInPlace here f) : t.TouchesOnly here :=
  fun s paths hfiles l hl => (h s paths hfiles).2.other l hl

end Tool

namespace Formatter

variable (host : Host) (executable : Option Text) (paths : List Text) (w : Workspace)

theorem runOn_call (tool : Tool) (arguments : List Text) :
    (call host tool arguments).runOn w =
      (.ok (tool.run host.here arguments w.store).1,
        { w with
          store := (tool.run host.here arguments w.store).2
          calls := w.calls ++ [arguments] }) := rfl

theorem exists_records_runOn_format_of_idle
    (h : paths = [] ∨ ∀ tool, find host executable ≠ .ok tool) :
    ∃ records, (format host executable paths).runOn w =
      (.ok false, { w with journal := w.journal ++ records }) := by
  rw [format]
  cases hpaths : paths.isEmpty with
  | true => exact ⟨[], by rw [List.append_nil]; rfl⟩
  | false =>
      rw [if_neg Bool.false_ne_true]
      cases hfind : find host executable with
      | error p => exact ⟨_, rfl⟩
      | ok tool =>
          rcases h with rfl | h
          · exact nomatch hpaths
          · exact absurd hfind (h tool)

/-- A formatter that is found is called once, and how it ends is all that counts. -/
theorem exists_records_runOn_format_of_find (tool : Tool) (hne : paths ≠ [])
    (hfind : find host executable = .ok tool) :
    ∃ records, (format host executable paths).runOn w =
      ((tool.run host.here (command tool.path paths) w.store).1.verdict,
        { store := (tool.run host.here (command tool.path paths) w.store).2
          journal := w.journal ++ records
          calls := w.calls ++ [command tool.path paths] }) := by
  have hpaths : paths.isEmpty = false := by simpa using hne
  rw [format, hpaths, if_neg Bool.false_ne_true, hfind]
  simp only
  rw [Action.runOn_bind_of_ok _ _ w _ () (Action.runOn_record _ _ _ w),
    Action.runOn_bind_of_ok _ _ _ _ _ (runOn_call host _ tool (command tool.path paths))]
  cases hrun : (tool.run host.here (command tool.path paths) w.store).1 with
  | interrupted => exact ⟨_, rfl⟩
  | undecoded f => exact ⟨_, rfl⟩
  | notStarted e => exact ⟨_ ++ [_], congrArg (Prod.mk _) (by rw [← List.append_assoc])⟩
  | finished exit output errors =>
      simp only
      by_cases hexit : exit = 0
      · rw [if_neg (not_not.2 hexit), ToolOutcome.verdict, decide_eq_true hexit]
        exact ⟨_ ++ [_], congrArg (Prod.mk _) (by rw [← List.append_assoc])⟩
      · rw [if_pos hexit, ToolOutcome.verdict, decide_eq_false hexit]
        exact ⟨_ ++ [_], congrArg (Prod.mk _) (by rw [← List.append_assoc])⟩

theorem exists_runOn_format_of_idle
    (h : paths = [] ∨ ∀ tool, find host executable ≠ .ok tool) :
    ∃ w', (format host executable paths).runOn w = (.ok false, w') ∧ w'.store = w.store := by
  obtain ⟨records, hrun⟩ := exists_records_runOn_format_of_idle host executable paths w h
  exact ⟨_, hrun, rfl⟩

theorem exists_runOn_format_of_find (tool : Tool) (hne : paths ≠ [])
    (hfind : find host executable = .ok tool) :
    ∃ w', (format host executable paths).runOn w =
        ((tool.run host.here (command tool.path paths) w.store).1.verdict, w') ∧
      w'.store = (tool.run host.here (command tool.path paths) w.store).2 := by
  obtain ⟨records, hrun⟩ :=
    exists_records_runOn_format_of_find host executable paths w tool hne hfind
  exact ⟨_, hrun, rfl⟩

end Formatter

namespace Run

variable (host : Host) (s : Settings)

theorem runOn_formatWith_of_not_format (hformat : s.format = false) (paths : List Text)
    (w : Workspace) : (formatWith host s paths).runOn w = (.ok false, w) := by
  rw [formatWith, hformat]
  rfl

/-- Whether the formatter of the settings is never interrupted. -/
def NeverInterrupted : Prop :=
  s.format = true → ∀ tool, Formatter.find host (some s.formatter) = .ok tool →
    ∀ arguments store, (tool.run host.here arguments store).1 ≠ .interrupted

theorem formatWith_eq_error (paths : List Text) (w w' : Workspace) (e : Failure)
    (h : (formatWith host s paths).runOn w = (.error e, w')) :
    s.format = true ∧ ∃ tool, Formatter.find host (some s.formatter) = .ok tool ∧
      (tool.run host.here (Formatter.command tool.path paths) w.store).1.verdict = .error e := by
  cases hformat : s.format with
  | false =>
      rw [runOn_formatWith_of_not_format host s hformat] at h
      cases h
  | true =>
      rw [formatWith, hformat, if_pos rfl] at h
      by_cases hidle : paths = [] ∨ ∀ tool, Formatter.find host (some s.formatter) ≠ .ok tool
      · obtain ⟨w₁, hrun, -⟩ := Formatter.exists_runOn_format_of_idle host _ paths w hidle
        cases h.symm.trans hrun
      · simp only [not_or, not_forall, not_not] at hidle
        obtain ⟨hne, tool, hfind⟩ := hidle
        obtain ⟨w₁, hrun, -⟩ :=
          Formatter.exists_runOn_format_of_find host _ paths w tool hne hfind
        exact ⟨rfl, tool, hfind, (Prod.mk.inj (hrun.symm.trans h)).1⟩

/-- Without an interruption formatting fails only by output that is no text. -/
theorem NeverInterrupted.exists_decoding (hnever : NeverInterrupted host s) (paths : List Text)
    (w w' : Workspace) (e : Failure) (h : (formatWith host s paths).runOn w = (.error e, w')) :
    s.format = true ∧ ∃ tool f, Formatter.find host (some s.formatter) = .ok tool ∧
      (tool.run host.here (Formatter.command tool.path paths) w.store).1 = .undecoded f ∧
      e = .decoding f := by
  obtain ⟨hformat, tool, hfind, hverdict⟩ := formatWith_eq_error host s paths w w' e h
  rcases (ToolOutcome.verdict_eq_error_iff _ e).1 hverdict with ⟨hout, -⟩ | ⟨f, hout, he⟩
  · exact absurd hout (hnever hformat tool hfind _ _)
  · exact ⟨hformat, tool, f, hfind, hout, he⟩

theorem touchesOnly_formatWith
    (h : s.format = true → ∀ tool, Formatter.find host (some s.formatter) = .ok tool →
      tool.TouchesOnly host.here) :
    Verification.TouchesOnly host.here
      (fun paths => do let _ ← formatWith host s paths : List Text → Action Unit) := by
  intro paths w hfiles l hl
  have hkeep : ((formatWith host s paths).runOn w).2.store.get? l = w.store.get? l := by
    cases hformat : s.format with
    | false => rw [runOn_formatWith_of_not_format host s hformat]
    | true =>
        rw [formatWith, hformat, if_pos rfl]
        by_cases hidle : paths = [] ∨ ∀ tool, Formatter.find host (some s.formatter) ≠ .ok tool
        · obtain ⟨w₁, hrun, hstore⟩ := Formatter.exists_runOn_format_of_idle host _ paths w hidle
          rw [hrun, hstore]
        · simp only [not_or, not_forall, not_not] at hidle
          obtain ⟨hne, tool, hfind⟩ := hidle
          obtain ⟨w₁, hrun, hstore⟩ :=
            Formatter.exists_runOn_format_of_find host _ paths w tool hne hfind
          rw [hrun, hstore]
          exact h hformat tool hfind w.store paths hfiles l hl
  rw [Action.runOn_bind]
  rcases hrun : (formatWith host s paths).runOn w with ⟨e | b, w₁⟩ <;> rwa [hrun] at hkeep

/-- Whether formatting with the settings is what a formatting says: it always comes to an end, and
does nothing if it is not asked for. -/
structure FormatsBy (f : Formatting) : Prop where
  eq_keep : s.format = false → f = .keep
  exists_runOn : ∀ paths w, w.store.LeadToFiles host.here paths →
    ∃ b w', (formatWith host s paths).runOn w = (.ok b, w') ∧
      Store.Formatted f host.here paths w.store w'.store

theorem formatsBy_keep (hformat : s.format = false) : FormatsBy host s .keep where
  eq_keep _ := rfl
  exists_runOn paths w _ :=
    ⟨false, w, runOn_formatWith_of_not_format host s hformat paths w, Store.formatted_keep _ _ _⟩

/-- A formatter that formats in place makes every run format by one formatting. -/
theorem exists_formatsBy (f : Formatting)
    (h : s.format = true → ∀ tool, Formatter.find host (some s.formatter) = .ok tool →
      tool.FormatsInPlace host.here f) : ∃ f', FormatsBy host s f' := by
  cases hformat : s.format with
  | false => exact ⟨.keep, formatsBy_keep host s hformat⟩
  | true =>
      by_cases hfind : ∃ tool, Formatter.find host (some s.formatter) = .ok tool
      · obtain ⟨tool, hfind⟩ := hfind
        refine ⟨f, fun hfalse => ?_, fun paths w hfiles => ?_⟩
        · rw [hformat] at hfalse
          exact nomatch hfalse
        · rw [formatWith, hformat, if_pos rfl]
          by_cases hne : paths = []
          · obtain ⟨w', hrun, hstore⟩ :=
              Formatter.exists_runOn_format_of_idle host (some s.formatter) paths w (.inl hne)
            refine ⟨false, w', hrun, ?_⟩
            rw [hstore, hne]
            exact ⟨fun p hp => (nomatch hp), fun l _ => rfl⟩
          · obtain ⟨w', hrun, hstore⟩ :=
              Formatter.exists_runOn_format_of_find host (some s.formatter) paths w tool hne hfind
            obtain ⟨⟨b, hb⟩, heffect⟩ := h hformat tool hfind w.store paths hfiles
            rw [← hstore] at heffect
            exact ⟨b, w', hb ▸ hrun, heffect⟩
      · rw [not_exists] at hfind
        refine ⟨.keep, fun _ => rfl, fun paths w _ => ?_⟩
        obtain ⟨w', hrun, hstore⟩ :=
          Formatter.exists_runOn_format_of_idle host (some s.formatter) paths w (.inr hfind)
        rw [formatWith, hformat, if_pos rfl]
        refine ⟨false, w', hrun, ?_⟩
        rw [hstore]
        exact Store.formatted_keep _ _ _

theorem FormatsBy.formatsFiles (f : Formatting) (h : FormatsBy host s f) :
    Verification.FormatsFiles host.here f
      (fun paths => do let _ ← formatWith host s paths : List Text → Action Unit) := by
  intro paths w hfiles
  obtain ⟨b, w', hrun, hformatted⟩ := h.exists_runOn paths w hfiles
  refine ⟨w', ?_, hformatted⟩
  rw [Action.runOn_bind_of_ok _ _ w w' b hrun]
  rfl

end Run

namespace Path

theorem isSuffixOf_base (suffix p : Text) (hsuffix : slash ∉ suffix) :
    suffix.isSuffixOf (base p) = suffix.isSuffixOf p := by
  have hall : ∀ c ∈ suffix.reverse, decide (c ≠ slash) = true := by
    intro c hc
    exact decide_eq_true fun hc' => hsuffix (hc' ▸ List.mem_reverse.1 hc)
  rw [Bool.eq_iff_iff, List.isSuffixOf_iff_suffix, List.isSuffixOf_iff_suffix, base,
    ← List.reverse_prefix, List.reverse_reverse, ← List.reverse_prefix]
  constructor
  · exact fun h => h.trans (List.takeWhile_prefix _)
  · rintro ⟨rest, hrest⟩
    rw [← hrest, List.takeWhile_append_of_pos hall]
    exact List.prefix_append _ _

end Path

namespace Tool

def appendingTo (addition : Bytes) : Formatting := fun name bytes =>
  (if scriptSuffix.isSuffixOf name then bytes ++ addition else bytes, none)

theorem exists_appendToAll_eq (here : Text) (mask : Mode) (addition : Bytes) (paths : List Text)
    (s : Store) (h : s.LeadToFiles here paths) :
    ∃ s', appendToAll here mask addition (paths.filter scriptSuffix.isSuffixOf) s = (.ok (), s') ∧
      Store.Formatted (appendingTo addition) here paths s s' := by
  induction paths generalizing s with
  | nil => exact ⟨s, rfl, fun p hp => (nomatch hp), fun l _ => rfl⟩
  | cons p ps ih =>
      obtain ⟨hfile, -⟩ := List.forall_mem_cons.1 h.isFile
      obtain ⟨l, bytes, mode, hl, hget⟩ := (Store.isFile_iff _ _ _).1 hfile
      have hbase := Path.isSuffixOf_base scriptSuffix p (by decide)
      -- The entry of the first path after it is formatted, whether or not it is a script.
      have hfirst : appendToAll here mask addition ((p :: ps).filter scriptSuffix.isSuffixOf) s =
          appendToAll here mask addition (ps.filter scriptSuffix.isSuffixOf)
            (s.set l ((appendingTo addition).entry (Path.base p) (.file bytes mode))) := by
        rw [Formatting.entry, appendingTo, hbase]
        cases hsuffix : scriptSuffix.isSuffixOf p with
        | false =>
            rw [List.filter_cons_of_neg (by simp [hsuffix])]
            exact congrArg _
              (Store.set_eq_self s l _ (Store.ne_nil_of_get?_eq_file s l bytes mode hget) hget).symm
        | true =>
            have happend : appendTo here mask addition p s =
                .ok (s.set l (.file (bytes ++ addition) mode)) := by
              rw [appendTo, (Store.entry_eq_ok_iff s here p l _).2 ⟨hl, hget⟩]
            rw [List.filter_cons_of_pos hsuffix, appendToAll, happend]
            rfl
      obtain ⟨s', happend, hformatted⟩ := ih _ (Store.leadToFiles_set h hl hget _ _)
      exact ⟨s', hfirst.trans happend, hformatted.of_set h hl hget⟩

/-- The formatter that appends a text to scripts formats in place, if it is no script itself and its
end can be told. -/
theorem formatsInPlace_appending (path addition : Text) (mask : Mode) (outcome : ToolOutcome)
    (here : Text) (hpath : scriptSuffix.isSuffixOf path = false)
    (houtcome : ∃ b, outcome.verdict = .ok b) :
    (appending path addition mask outcome).FormatsInPlace here
      (appendingTo ((Utf8.encode addition).toOption.getD [])) := by
  intro s paths h
  have hfilter : (Formatter.command path paths).filter scriptSuffix.isSuffixOf =
      paths.filter scriptSuffix.isSuffixOf := by
    have hoptions : Formatter.options.filter scriptSuffix.isSuffixOf = [] := by decide
    rw [Formatter.command, List.filter_cons_of_neg (by simp [hpath]), List.filter_append, hoptions,
      List.nil_append]
  obtain ⟨s', happend, hformatted⟩ :=
    exists_appendToAll_eq here mask ((Utf8.encode addition).toOption.getD []) paths s h
  have hrun : (appending path addition mask outcome).run here
      (Formatter.command path paths) s = (outcome, s') := by
    rw [appending]
    simp only [hfilter, happend]
  rw [show (appending path addition mask outcome).path = path from rfl, hrun]
  exact ⟨houtcome, hformatted⟩

end Tool

end LocaleKeys
