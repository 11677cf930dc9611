import LocaleKeys.Proofs.Run.Emission

/-!
# Comparing leaves no trace

A run that compares changes no entry, however it ends: with a result, with a failure of one of its
stages, or with an interruption of the formatter in the middle of its work
(`comparing_leaves_no_trace`). What it writes and formats all stands in the staging directory, and
that is gone afterwards. The formatter may do to the files it is given whatever it likes.
-/

namespace LocaleKeys

namespace Tool

/-- The formatter that does the work of another one and is then interrupted. -/
def interrupted (t : Tool) : Tool :=
  { t with run := fun here arguments s => (.interrupted, (t.run here arguments s).2) }

theorem TouchesOnly.interrupted {t : Tool} {here : Text} (h : t.TouchesOnly here) :
    t.interrupted.TouchesOnly here := h

end Tool

namespace Run

variable (host : Host) (s : Settings)

theorem store_runOn_conclude (inputFile : Text) (f : Failure) (w : Workspace) :
    ((conclude s inputFile f).runOn w).2.store = w.store := by
  obtain ⟨w', hstore, ⟨r, -, hrun⟩ | ⟨-, hrun⟩⟩ := exists_runOn_conclude s inputFile f w <;>
    rw [hrun, hstore]

theorem store_runOn_verify (p : Preparation) (g : Generated) (w : Workspace) :
    ((verify host s p g).runOn w).2.store =
      ((Verification.verify host s.outputPath
        (fun paths => do let _ ← formatWith host s paths) g.artifacts).runOn w).2.store := by
  rcases hrun : (Verification.verify host s.outputPath
    (fun paths => do let _ ← formatWith host s paths) g.artifacts).runOn w with ⟨e | v, w₁⟩
  · rw [verify, Action.runOn_bind_of_error _ _ w w₁ e hrun]
  · obtain ⟨r, w₂, hresult, hstore, -⟩ := exists_runOn_verify host s p g w w₁ v hrun
    rw [hresult, hstore]

/-- The files after a run are those before it, or those after its last stage. -/
theorem store_runOn_run_cases (w : Workspace) :
    ((run host s).runOn w).2.store = w.store ∨
      ∃ p g w₁, prepared host s w.store = .ok p ∧ generated host s w.store = .ok g ∧
        w₁.store = w.store ∧
        ((run host s).runOn w).2.store = ((lastStage host s p g).runOn w₁).2.store := by
  cases course_run host s w with
  | unread f w₁ hread hstore hending =>
      rw [hending, store_runOn_conclude]
      exact .inl hstore
  | unfinished p g f w₁ w₂ hread hstore hlast hending =>
      obtain ⟨hp, hg⟩ := (readStages_eq_ok_iff _ _ _ _ _).1 hread
      refine .inr ⟨p, g, w₁, hp, hg, hstore, ?_⟩
      rw [hending, store_runOn_conclude, hlast]
  | finished p g r w₁ w₂ hread hstore hlast hending =>
      obtain ⟨hp, hg⟩ := (readStages_eq_ok_iff _ _ _ _ _).1 hread
      refine .inr ⟨p, g, w₁, hp, hg, hstore, ?_⟩
      rw [hending, hlast]

/-- A run that compares leaves every entry as it was and no staging directory behind, however it
ends: `result` may be any result and any failure. The formatter has to touch only the files that it
is given. -/
theorem comparing_leaves_no_trace (hemit : s.noEmit = true)
    (hformat : s.format = true → ∀ tool, Formatter.find host (some s.formatter) = .ok tool →
      tool.TouchesOnly host.here)
    (hhere : Path.isAbsolute host.here = true) (w w' : Workspace) (hs : w.store.IsTree)
    (result : Except Failure RunResult) (hrun : (run host s).runOn w = (result, w')) :
    (∀ l, w'.store.get? l = w.store.get? l) ∧
      ∀ l, Verification.locationOf (Verification.stagingPath host.here w.store) <+: l →
        w'.store.get? l = none := by
  have hsame : ∀ l, w'.store.get? l = w.store.get? l := by
    intro l
    have hcases := store_runOn_run_cases host s w
    rw [hrun] at hcases
    rcases hcases with hstore | ⟨p, g, w₁, -, hg, hstore₁, hstore⟩
    · rw [hstore]
    · rw [hstore, lastStage, if_pos hemit, store_runOn_verify, ← hstore₁]
      exact Verification.get?_runOn_verify host s.outputPath _ g.artifacts w₁ hhere
        (hstore₁ ▸ hs) (isEntryName_of_generated host s w.store g hg)
        (nodup_map_name_of_generated host s w.store g hg)
        (touchesOnly_formatWith host s hformat) l
  refine ⟨hsame, ?_⟩
  obtain ⟨fresh, -, hlocation, hfree⟩ :=
    Verification.exists_stagingPath_eq_of_isTree w.store host.here hs
  rintro l ⟨rest, rfl⟩
  rw [hsame, hlocation]
  exact Verification.get?_append_eq_none_of_isTree w.store hs _ hfree rest

def interruptingHost : Host :=
  { bareHost with
    tools := [(OptionName.defaultFormatter, (Tool.appending "/usr/bin/prettier" "// formatted\n"
      0o022 (.finished 0 [] [])).interrupted)] }

theorem comparing_leaves_no_trace_interrupted :
    ∃ w', (run interruptingHost { markingSettings with noEmit := true }).runOn nestedWorkspace =
        (.error .interrupted, w') ∧
      (∀ l, w'.store.get? l = nestedWorkspace.store.get? l) ∧
      w'.store.get? (Verification.locationOf
        (Verification.stagingPath interruptingHost.here nestedWorkspace.store)) = none := by
  have hended : error? ((run interruptingHost { markingSettings with noEmit := true }).runOn
      nestedWorkspace).1 = some Failure.interrupted := by decide +kernel
  have hrun : (run interruptingHost { markingSettings with noEmit := true }).runOn nestedWorkspace =
      (.error .interrupted, _) :=
    Prod.ext (eq_error_of_error?_eq_some _ _ hended) rfl
  have hfind : Formatter.find interruptingHost (some markingSettings.formatter) =
      .ok (Tool.appending "/usr/bin/prettier" "// formatted\n" 0o022
        (.finished 0 [] [])).interrupted :=
    rfl
  obtain ⟨hsame, hgone⟩ := comparing_leaves_no_trace interruptingHost
    { markingSettings with noEmit := true } rfl (fun _ tool htool => by
      obtain rfl := Except.ok.inj (hfind.symm.trans htool)
      exact (Tool.formatsInPlace_appending _ _ _ _ _ (by decide)
        ⟨true, rfl⟩).touchesOnly.interrupted)
    rfl nestedWorkspace _ isTree_nestedWorkspace _ hrun
  exact ⟨_, hrun, hsame, hgone _ List.prefix_rfl⟩

end Run

end LocaleKeys
