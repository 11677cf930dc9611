import LocaleKeys.Proofs.Run.Defects

/-!
# When a run is interrupted

Only the formatter can be interrupted, and an interruption of the formatter always ends the run: a
run is interrupted exactly if it comes to format its artifacts, where they have been written or
staged, and the formatter is interrupted on them (`interrupted_run_iff`). The two ways of ending in
the last stage have one shape, files first, then the formatter, then what cannot be interrupted, and
share one lemma (`interrupted_format_iff`).
-/

namespace LocaleKeys

namespace Action

variable {α β : Type}

/-- Whether an action never ends with an interruption. -/
def Uninterrupted (a : Action α) : Prop := ∀ w, (a.runOn w).1 ≠ .error .interrupted

theorem interrupted_bind_iff (a : Action α) (k : α → Action β) (w : Workspace) :
    ((a >>= k).runOn w).1 = .error .interrupted ↔
      (a.runOn w).1 = .error .interrupted ∨
        ∃ x w₁, a.runOn w = (.ok x, w₁) ∧ ((k x).runOn w₁).1 = .error .interrupted := by
  rw [runOn_bind]
  rcases a.runOn w with ⟨e | x, w₁⟩ <;> simp

theorem Uninterrupted.bind {a : Action α} {k : α → Action β} (ha : a.Uninterrupted)
    (hk : ∀ x, (k x).Uninterrupted) : (a >>= k).Uninterrupted := by
  intro w h
  rcases (interrupted_bind_iff a k w).1 h with h | ⟨x, w₁, -, h⟩
  · exact ha w h
  · exact hk x w₁ h

theorem Reads.uninterrupted {a : Action α} {f : Store → Except Failure α} (h : a.Reads f)
    (hf : ∀ s, f s ≠ .error .interrupted) : a.Uninterrupted := by
  intro w
  rw [h.fst_runOn]
  exact hf w.store

theorem uninterrupted_change (f : Store → Except StoreFault α × Store) :
    (change f).Uninterrupted := by
  intro w h
  obtain ⟨fault, -, hfault⟩ := exists_of_runOn_change_eq_error f w _ _ (Prod.ext h rfl)
  cases fault with
  | system e => exact nomatch hfault
  | name n => cases n <;> exact nomatch hfault

theorem isCompositional_uninterrupted : IsCompositional fun _ a => a.Uninterrupted where
  pure _ _ := nofun
  bind := Uninterrupted.bind
  failing _ hf _ h := hf (Except.error.inj h)
  record _ _ _ _ := nofun
  inspect _ _ := nofun
  ofStore f hf := (reads_ofStore f).uninterrupted hf
  change := uninterrupted_change

end Action

namespace Document

theorem candidates_ne_interrupted (host : Host) (directory : Text) (s : Store) :
    candidates host directory s ≠ .error .interrupted := by
  unfold candidates
  split
  · exact nofun
  · split
    · exact nofun
    · exact nofun
    · exact fun h => ofStore_ne_interrupted _ (Except.error.inj h)

theorem parse_ne_interrupted (path : Text) (bytes : Bytes) :
    parse path bytes ≠ .error .interrupted := by
  unfold parse
  split
  · exact nofun
  · split <;> exact nofun

theorem read_ne_interrupted (host : Host) (path : Text) (s : Store) :
    read host path s ≠ .error .interrupted := by
  unfold read
  split
  · exact parse_ne_interrupted path _
  · exact nofun
  · exact fun h => ofStore_ne_interrupted _ (Except.error.inj h)

theorem loaded_ne_interrupted (host : Host) (directory : Text) (key : Option Text) (s : Store) :
    loaded host directory key s ≠ .error .interrupted := by
  intro h
  rcases bind_eq_error_cases _ _ _ h with h | ⟨path, -, h⟩
  · rcases bind_eq_error_cases _ _ _ h with h | ⟨paths, -, h⟩
    · exact candidates_ne_interrupted host directory s h
    · cases paths <;> exact nomatch h
  rcases bind_eq_error_cases _ _ _ h with h | ⟨whole, -, h⟩
  · exact read_ne_interrupted host path s h
  rcases bind_eq_error_cases _ _ _ h with h | ⟨tree, -, h⟩
  · exact mapError_ne_interrupted Failure.problem (fun _ => nofun) _ h
  rcases bind_eq_error_cases _ _ _ h with h | ⟨u, -, h⟩
  · exact mapError_ne_interrupted Failure.problem (fun _ => nofun) _ h
  · exact nomatch h

end Document

namespace Formatter

/-- Whether the formatter is called with files, and is interrupted on them. -/
def Interrupts (host : Host) (executable : Option Text) (paths : List Text) (store : Store) :
    Prop :=
  paths ≠ [] ∧ ∃ tool, find host executable = .ok tool ∧
    (tool.run host.here (command tool.path paths) store).1 = .interrupted

/-- Formatting passes an interruption of the formatter on, and is interrupted in no other way. -/
theorem interrupted_format_iff (host : Host) (executable : Option Text) (paths : List Text)
    (w : Workspace) : ((format host executable paths).runOn w).1 = .error .interrupted ↔
      Interrupts host executable paths w.store := by
  by_cases hidle : paths = [] ∨ ∀ tool, find host executable ≠ .ok tool
  · obtain ⟨w', hrun, -⟩ := exists_runOn_format_of_idle host executable paths w hidle
    rw [hrun]
    refine iff_of_false (by simp) ?_
    rintro ⟨hne, tool, hfind, -⟩
    exact hidle.elim hne fun h => h tool hfind
  · simp only [not_or, not_forall, not_not] at hidle
    obtain ⟨hne, tool, hfind⟩ := hidle
    have hinterrupts : Interrupts host executable paths w.store ↔
        (tool.run host.here (command tool.path paths) w.store).1 = .interrupted := by
      refine ⟨?_, fun h => ⟨hne, tool, hfind, h⟩⟩
      rintro ⟨-, tool', hfind', h⟩
      obtain rfl := Except.ok.inj (hfind.symm.trans hfind')
      exact h
    obtain ⟨records, hrun⟩ :=
      exists_records_runOn_format_of_find host executable paths w tool hne hfind
    rw [hinterrupts, hrun, ToolOutcome.verdict_eq_interrupted_iff]

end Formatter

namespace Run

variable (host : Host) (s : Settings)

theorem interrupted_formatWith_iff (paths : List Text) (w : Workspace) :
    ((formatWith host s paths).runOn w).1 = .error .interrupted ↔
      s.format = true ∧ Formatter.Interrupts host (some s.formatter) paths w.store := by
  cases hformat : s.format with
  | false =>
      rw [runOn_formatWith_of_not_format host s hformat]
      exact iff_of_false nofun fun h => nomatch h.1
  | true =>
      rw [formatWith, hformat, if_pos rfl, Formatter.interrupted_format_iff]
      exact ⟨fun h => ⟨rfl, h⟩, And.right⟩

/-- A stage that puts artifacts into files, formats them and goes on in some way that cannot be
interrupted, is interrupted exactly if the formatter is, on the files as they have been put. -/
theorem interrupted_format_iff {β γ : Type} (place : Action (List Text))
    (format : List Text → Action γ) (rest : List Text → γ → Action β)
    (hplace : place.Uninterrupted) (hfollows : place.FollowsFiles)
    (hformat : ∀ paths w, ((format paths).runOn w).1 = .error .interrupted ↔
      s.format = true ∧ Formatter.Interrupts host (some s.formatter) paths w.store)
    (hrest : ∀ paths x, (rest paths x).Uninterrupted) (w : Workspace) :
    ((place >>= fun paths => format paths >>= rest paths).runOn w).1 = .error .interrupted ↔
      s.format = true ∧ ∃ paths store', place.outcome w.store = (.ok paths, store') ∧
        Formatter.Interrupts host (some s.formatter) paths store' := by
  have hstage : ∀ paths w₁, ((format paths >>= rest paths).runOn w₁).1 = .error .interrupted ↔
      s.format = true ∧ Formatter.Interrupts host (some s.formatter) paths w₁.store := by
    intro paths w₁
    rw [Action.interrupted_bind_iff, hformat]
    exact or_iff_left fun ⟨x, w₂, _, h⟩ => hrest paths x w₂ h
  rw [Action.interrupted_bind_iff, or_iff_right (hplace w)]
  constructor
  · rintro ⟨paths, w₁, hrun, h⟩
    obtain ⟨hasked, hinterrupts⟩ := (hstage paths w₁).1 h
    exact ⟨hasked, paths, w₁.store, hfollows.outcome_eq w w₁ _ hrun, hinterrupts⟩
  · rintro ⟨hasked, paths, store', houtcome, hinterrupts⟩
    obtain ⟨hpaths, rfl⟩ := Prod.mk.inj ((hfollows w).trans houtcome)
    exact ⟨paths, _, Prod.ext hpaths rfl, (hstage paths _).2 ⟨hasked, hinterrupts⟩⟩

def placed (store : Store) (g : Generated) : Except Failure (List Text) × Store :=
  if s.noEmit then staged host store g
  else (Artifact.writeAll host s.outputPath (!s.format) g.artifacts).outcome store

section LastStage

variable (p : Preparation) (g : Generated) (w : Workspace)

theorem interrupted_emit_iff :
    ((emit host s p g).runOn w).1 = .error .interrupted ↔
      s.format = true ∧ ∃ paths store',
        (Artifact.writeAll host s.outputPath (!s.format) g.artifacts).outcome w.store =
          (.ok paths, store') ∧ Formatter.Interrupts host (some s.formatter) paths store' :=
  interrupted_format_iff host s _ (formatWith host s) _
    (Action.isCompositional_uninterrupted.writeAll host _ _ _)
    (Artifact.followsFiles_writeAll _ _ _ _) (interrupted_formatWith_iff host s)
    (fun _ _ => Action.isCompositional_uninterrupted.bind
      (Action.isCompositional_uninterrupted.record _ _ _) fun _ =>
        Action.isCompositional_uninterrupted.pure _) w

theorem interrupted_compareStaged_iff (staging : Text) :
    ((Verification.compareStaged host s.outputPath staging
      (fun paths => do let _ ← formatWith host s paths) g.artifacts).runOn w).1 =
        .error .interrupted ↔
      s.format = true ∧ ∃ paths store',
        (Verification.stage host staging g.artifacts).outcome w.store = (.ok paths, store') ∧
          Formatter.Interrupts host (some s.formatter) paths store' := by
  rw [Verification.compareStaged, Action.runOn_bind_of_ok _ _ w _ () (Action.runOn_record _ _ _ w)]
  refine interrupted_format_iff host s _ _ _ (Action.isCompositional_uninterrupted.stage host _ _)
    (Verification.followsFiles_stage _ _ _) (fun paths w₁ => ?_) (fun paths u => ?_) _
  · rw [Action.interrupted_bind_iff, interrupted_formatWith_iff]
    refine or_iff_left ?_
    rintro ⟨x, w₂, -, h⟩
    cases h
  · refine (Verification.reads_compareAll host s.outputPath _).uninterrupted fun store h => ?_
    obtain ⟨q, -, f, -, hf⟩ :=
      Verification.exists_unread_of_comparedAll_eq_error host s.outputPath store _ _ h
    exact ofStore_ne_interrupted f hf.symm

theorem interrupted_verify_iff :
    ((verify host s p g).runOn w).1 = .error .interrupted ↔
      s.format = true ∧ ∃ paths store', staged host w.store g = (.ok paths, store') ∧
        Formatter.Interrupts host (some s.formatter) paths store' := by
  have hstaged := interrupted_compareStaged_iff host s g
    { w with store := withStaging host.here w.store } (Verification.stagingPath host.here w.store)
  rw [staged, ← hstaged, verify, Action.interrupted_bind_iff]
  have hrun := Verification.runOn_verify host s.outputPath
    (fun paths => do let _ ← formatWith host s paths) g.artifacts w _ _ rfl
  rw [hrun, or_iff_left]
  · refine ⟨fun h => eq_error_of_map_eq_error _ _ _ h, fun h => ?_⟩
    exact congrArg (Except.map _) h
  · rintro ⟨v, w₁, -, h⟩
    dsimp only at h
    split at h <;> cases h

theorem interrupted_lastStage_iff :
    ((lastStage host s p g).runOn w).1 = .error .interrupted ↔
      s.format = true ∧ ∃ paths store', placed host s w.store g = (.ok paths, store') ∧
        Formatter.Interrupts host (some s.formatter) paths store' := by
  rw [lastStage, placed]
  split
  · exact interrupted_verify_iff host s p g w
  · exact interrupted_emit_iff host s p g w

end LastStage

/-- Whether the formatter is interrupted when a run comes to format its artifacts. -/
def IsInterrupted (store : Store) : Prop :=
  s.format = true ∧ ∃ p g paths store', prepared host s store = .ok p ∧
    generated host s store = .ok g ∧ placed host s store g = (.ok paths, store') ∧
      Formatter.Interrupts host (some s.formatter) paths store'

theorem readStages_ne_interrupted (store : Store) :
    readStages host s store ≠ .error .interrupted := by
  intro h
  rcases bind_eq_error_cases _ _ _ h with h | ⟨p, -, h⟩
  · unfold prepared at h
    split at h
    · exact nomatch h
    · split at h <;> exact nomatch h
  rcases bind_eq_error_cases _ _ _ h with h | ⟨g, -, h⟩
  · rcases bind_eq_error_cases _ _ _ h with h | ⟨⟨path, t⟩, -, h⟩
    · exact Document.loaded_ne_interrupted host s.inputPath s.excludeKey store h
    · rcases bind_eq_error_cases _ _ _ h with h | ⟨artifacts, -, h⟩
      · exact mapError_ne_interrupted Failure.problem (fun _ => nofun) _ h
      · exact nomatch h
  · exact nomatch h

theorem interrupted_conclude_iff (inputFile : Text) (f : Failure) (w : Workspace) :
    ((conclude s inputFile f).runOn w).1 = .error .interrupted ↔ f = .interrupted := by
  obtain ⟨w', -, ⟨r, hr, hrun⟩ | ⟨hnone, hrun⟩⟩ := exists_runOn_conclude s inputFile f w
  · rw [hrun]
    refine iff_of_false nofun ?_
    rintro rfl
    exact nomatch hr
  · rw [hrun]
    exact ⟨Except.error.inj, congrArg _⟩

/-- A run is interrupted exactly if it comes to format its artifacts and the formatter is
interrupted. -/
theorem interrupted_run_iff (w : Workspace) :
    ((run host s).runOn w).1 = .error .interrupted ↔ IsInterrupted host s w.store := by
  have hlast : ∀ p g w₁, readStages host s w.store = .ok (p, g) → w₁.store = w.store →
      (((lastStage host s p g).runOn w₁).1 = .error .interrupted ↔
        IsInterrupted host s w.store) := by
    intro p g w₁ hread hstore
    obtain ⟨hp, hg⟩ := (readStages_eq_ok_iff _ _ _ _ _).1 hread
    rw [interrupted_lastStage_iff, hstore]
    constructor
    · rintro ⟨hasked, paths, store', hplaced, hinterrupts⟩
      exact ⟨hasked, p, g, paths, store', hp, hg, hplaced, hinterrupts⟩
    · rintro ⟨hasked, p', g', paths, store', hp', hg', hplaced, hinterrupts⟩
      obtain rfl := Except.ok.inj (hg.symm.trans hg')
      exact ⟨hasked, paths, store', hplaced, hinterrupts⟩
  cases course_run host s w with
  | unread f w₁ hread hstore hending =>
      rw [hending, interrupted_conclude_iff]
      refine iff_of_false (fun h => readStages_ne_interrupted host s w.store (h ▸ hread)) ?_
      rintro ⟨-, p, g, -, -, hp, hg, -⟩
      exact nomatch ((readStages_eq_ok_iff _ _ _ _ _).2 ⟨hp, hg⟩).symm.trans hread
  | unfinished p g f w₁ w₂ hread hstore hlastStage hending =>
      rw [hending, interrupted_conclude_iff, ← hlast p g w₁ hread hstore, hlastStage]
      exact ⟨congrArg _, Except.error.inj⟩
  | finished p g r w₁ w₂ hread hstore hlastStage hending =>
      rw [hending, ← hlast p g w₁ hread hstore, hlastStage]

end Run

end LocaleKeys
