import LocaleKeys.Proofs.Run.Generation

/-!
# The stages of a run

A run reads first: what is prepared and what is rendered depend on the files alone. Its last stage
writes or compares. So there are three courses that a run can take (`course_run`). A run with an
`ok` result is one whose reading stages succeed and whose last stage gives that result
(`exists_of_run_eq_ok`); the other way round, the reading stages and the last one make up the run
(`exists_runOn_run`).
-/

namespace LocaleKeys

namespace Run

def prepared (host : Host) (s : Settings) (store : Store) : Except Failure Preparation :=
  if !store.isDirectory host.here s.inputPath then
    .error (.problem (.inputAbsent s.inputPath))
  else if !store.isDirectory host.here s.outputPath then
    .error (.problem (.outputAbsent s.outputPath))
  else
    .ok ⟨OutputMode.expectedNames s.outputMode,
      store.present host.here s.outputPath (OutputMode.expectedNames s.outputMode)⟩

theorem reads_prepare (host : Host) (s : Settings) :
    (prepare host s).Reads (prepared host s) := by
  intro w
  have hinput : (Action.inspect fun store => store.isDirectory host.here s.inputPath).runOn w =
      (.ok (w.store.isDirectory host.here s.inputPath), w) := rfl
  have houtput : (Action.inspect fun store => store.isDirectory host.here s.outputPath).runOn w =
      (.ok (w.store.isDirectory host.here s.outputPath), w) := rfl
  rw [prepare, Action.runOn_bind_of_ok _ _ w w _ hinput, prepared]
  cases w.store.isDirectory host.here s.inputPath with
  | false => exact ⟨[], by rw [List.append_nil]; rfl⟩
  | true =>
      simp only [Bool.not_true, Bool.false_eq_true, if_false]
      rw [Action.runOn_bind_of_ok _ _ w w _ houtput]
      cases w.store.isDirectory host.here s.outputPath with
      | false => exact ⟨[], by rw [List.append_nil]; rfl⟩
      | true =>
          simp only [Bool.not_true, Bool.false_eq_true, if_false]
          have hexisting : (Action.inspect fun store => store.present host.here s.outputPath
              (OutputMode.expectedNames s.outputMode)).runOn w =
              (.ok (w.store.present host.here s.outputPath
                (OutputMode.expectedNames s.outputMode)), w) := rfl
          rw [Action.runOn_bind_of_ok _ _ w w _ hexisting]
          cases w.store.present host.here s.outputPath (OutputMode.expectedNames s.outputMode) with
          | nil => exact ⟨_, rfl⟩
          | cons path paths =>
              refine Action.Reads.of_record _ _ (fun _ => .ok _) (Action.reads_record _ _ _) ?_ w
              exact Action.Reads.of_record _ _ _ (Action.reads_record _ _ _) (Action.reads_pure _)

theorem exists_prepared_iff (host : Host) (s : Settings) (store : Store) :
    (∃ p, prepared host s store = .ok p) ↔ store.isDirectory host.here s.inputPath = true ∧
      store.isDirectory host.here s.outputPath = true := by
  rw [prepared]
  cases store.isDirectory host.here s.inputPath <;>
    cases store.isDirectory host.here s.outputPath <;> simp

theorem failed_of_resultOf? (s : Settings) (inputFile : Text) (f : Failure) (r : RunResult)
    (h : resultOf? s inputFile f = some r) :
    r.ok = false ∧ ∃ kind : ProblemKind, r.errorKind = kind.name := by
  unfold resultOf? at h
  split at h
  · next p =>
      rw [← Option.some.inj h]
      exact ⟨rfl, p.kind, rfl⟩
  · rw [← Option.some.inj h]
    exact ⟨rfl, .generation, rfl⟩
  · exact nomatch h

theorem exists_runOn_conclude (s : Settings) (inputFile : Text) (f : Failure) (w : Workspace) :
    ∃ w', w'.store = w.store ∧
      ((∃ r, resultOf? s inputFile f = some r ∧
          (conclude s inputFile f).runOn w = (.ok r, w')) ∨
        resultOf? s inputFile f = none ∧ (conclude s inputFile f).runOn w = (.error f, w')) := by
  unfold conclude
  cases hr : resultOf? s inputFile f with
  | none => exact ⟨w, rfl, .inr ⟨rfl, rfl⟩⟩
  | some r =>
      exact ⟨{ w with journal := w.journal ++ [⟨.error, Source.run, r.error⟩] }, rfl,
        .inl ⟨r, rfl, rfl⟩⟩

theorem resultOf?_of_conclude_eq_ok (s : Settings) (inputFile : Text) (f : Failure)
    (w w' : Workspace) (r : RunResult) (h : (conclude s inputFile f).runOn w = (.ok r, w')) :
    resultOf? s inputFile f = some r := by
  obtain ⟨w₁, -, ⟨r', hr', hrun⟩ | ⟨-, hrun⟩⟩ := exists_runOn_conclude s inputFile f w
  · obtain rfl := Except.ok.inj (Prod.mk.inj (h.symm.trans hrun)).1
    exact hr'
  · exact nomatch (Prod.mk.inj (h.symm.trans hrun)).1

theorem not_ok_of_conclude (s : Settings) (inputFile : Text) (f : Failure) (w w' : Workspace)
    (r : RunResult) (h : (conclude s inputFile f).runOn w = (.ok r, w')) : r.ok = false :=
  (failed_of_resultOf? s inputFile f r (resultOf?_of_conclude_eq_ok s inputFile f w w' r h)).1

/-- The last stage of a run: it compares with the committed artifacts, or it writes. -/
def lastStage (host : Host) (s : Settings) (p : Preparation) (g : Generated) : Action RunResult :=
  if s.noEmit then verify host s p g else emit host s p g

def readingStages (host : Host) (s : Settings) : Action (Preparation × Generated) := do
  let p ← prepare host s
  let g ← generate host s
  return (p, g)

def readStages (host : Host) (s : Settings) (store : Store) :
    Except Failure (Preparation × Generated) := do
  let p ← prepared host s store
  let g ← generated host s store
  return (p, g)

theorem readStages_eq_ok_iff (host : Host) (s : Settings) (store : Store) (p : Preparation)
    (g : Generated) : readStages host s store = .ok (p, g) ↔
      prepared host s store = .ok p ∧ generated host s store = .ok g := by
  constructor
  · intro h
    obtain ⟨p', hp, h⟩ := exists_of_bind_eq_ok _ _ _ h
    obtain ⟨g', hg, h⟩ := exists_of_bind_eq_ok _ _ _ h
    obtain ⟨rfl, rfl⟩ := Prod.mk.inj (Except.ok.inj h)
    exact ⟨hp, hg⟩
  · rintro ⟨hp, hg⟩
    rw [readStages, hp]
    simp only [bind, Except.bind, hg]
    rfl

theorem reads_readingStages (host : Host) (s : Settings) :
    (readingStages host s).Reads (readStages host s) :=
  Action.Reads.bind _ _ _ _ (reads_prepare host s) fun p =>
    Action.Reads.bind _ _ _ _ (reads_generate host s) fun g => Action.reads_pure (p, g)

/-- How a run comes to what it ends with: its reading stages fail, its last stage fails, or its last
stage gives the result. -/
inductive Course (host : Host) (s : Settings) (w : Workspace)
    (ending : Except Failure RunResult × Workspace) : Prop
  | unread (f : Failure) (w₁ : Workspace) (hread : readStages host s w.store = .error f)
      (hstore : w₁.store = w.store) (hending : ending = (conclude s [] f).runOn w₁)
  | unfinished (p : Preparation) (g : Generated) (f : Failure) (w₁ w₂ : Workspace)
      (hread : readStages host s w.store = .ok (p, g)) (hstore : w₁.store = w.store)
      (hlast : (lastStage host s p g).runOn w₁ = (.error f, w₂))
      (hending : ending = (conclude s g.inputFile f).runOn w₂)
  | finished (p : Preparation) (g : Generated) (r : RunResult) (w₁ w₂ : Workspace)
      (hread : readStages host s w.store = .ok (p, g)) (hstore : w₁.store = w.store)
      (hlast : (lastStage host s p g).runOn w₁ = (.ok r, w₂)) (hending : ending = (.ok r, w₂))

end Run

theorem runOn_run (host : Host) (s : Settings) (w : Workspace) :
    (run host s).runOn w = (do
      match ← Action.capture (Run.readingStages host s) with
      | .error f => Run.conclude s [] f
      | .ok (p, g) =>
          match ← Action.capture (Run.lastStage host s p g) with
          | .ok r => return r
          | .error f => Run.conclude s g.inputFile f : Action RunResult).runOn
        { w with journal := w.journal ++ [⟨.info, Source.run, "Pipeline execution started."⟩] } :=
  rfl

/-- The reading stages of a run leave the files and the calls as they are, and what follows depends
on what they give. -/
theorem exists_runOn_run_eq (host : Host) (s : Settings) (w : Workspace) :
    ∃ w₁, w₁.store = w.store ∧ w₁.calls = w.calls ∧ (run host s).runOn w =
      match Run.readStages host s w.store with
      | .error f => (Run.conclude s [] f).runOn w₁
      | .ok (p, g) =>
          match (Run.lastStage host s p g).runOn w₁ with
          | (.ok r, w₂) => (.ok r, w₂)
          | (.error f, w₂) => (Run.conclude s g.inputFile f).runOn w₂ := by
  obtain ⟨w₁, hread, hstore, hcalls⟩ : ∃ w₁, (Run.readingStages host s).runOn
        { w with journal := w.journal ++ [⟨.info, Source.run, "Pipeline execution started."⟩] } =
      (Run.readStages host s w.store, w₁) ∧ w₁.store = w.store ∧ w₁.calls = w.calls := by
    obtain ⟨records, hread⟩ := Run.reads_readingStages host s
      { w with journal := w.journal ++ [⟨.info, Source.run, "Pipeline execution started."⟩] }
    exact ⟨_, hread, rfl, rfl⟩
  refine ⟨w₁, hstore, hcalls, ?_⟩
  rw [runOn_run,
    Action.runOn_bind_of_ok _ _ _ _ _ ((Action.runOn_capture _ _).trans (by rw [hread]))]
  dsimp only
  cases Run.readStages host s w.store with
  | error f => rfl
  | ok pg =>
      obtain ⟨p, g⟩ := pg
      dsimp only
      rw [Action.runOn_bind_of_ok _ _ _ _ _ (Action.runOn_capture _ _)]
      rcases (Run.lastStage host s p g).runOn _ with ⟨f | r, w₂⟩ <;> rfl

/-- Every run takes one of the courses. -/
theorem course_run (host : Host) (s : Settings) (w : Workspace) :
    Run.Course host s w ((run host s).runOn w) := by
  obtain ⟨w₁, hstore, -, hrun⟩ := exists_runOn_run_eq host s w
  rw [hrun]
  cases hread : Run.readStages host s w.store with
  | error f => exact .unread f w₁ hread hstore rfl
  | ok pg =>
      obtain ⟨p, g⟩ := pg
      dsimp only
      rcases hlast : (Run.lastStage host s p g).runOn w₁ with ⟨f | r, w₂⟩
      · exact .unfinished p g f w₁ w₂ hread hstore hlast rfl
      · exact .finished p g r w₁ w₂ hread hstore hlast rfl

theorem exists_of_run_eq_ok (host : Host) (s : Settings) (w w' : Workspace) (r : RunResult)
    (h : (run host s).runOn w = (.ok r, w')) (hok : r.ok = true) :
    ∃ p g w₁, Run.prepared host s w.store = .ok p ∧ Run.generated host s w.store = .ok g ∧
      w₁.store = w.store ∧ (Run.lastStage host s p g).runOn w₁ = (.ok r, w') := by
  have hcourse := course_run host s w
  rw [h] at hcourse
  -- A stage that fails is concluded, and what is concluded is never an `ok` result.
  cases hcourse with
  | unread f w₁ hread hstore hending =>
      rw [Run.not_ok_of_conclude _ _ _ _ _ _ hending.symm] at hok
      exact nomatch hok
  | unfinished p g f w₁ w₂ hread hstore hlast hending =>
      rw [Run.not_ok_of_conclude _ _ _ _ _ _ hending.symm] at hok
      exact nomatch hok
  | finished p g r' w₁ w₂ hread hstore hlast hending =>
      obtain ⟨hp, hg⟩ := (Run.readStages_eq_ok_iff _ _ _ _ _).1 hread
      rw [hending]
      exact ⟨p, g, w₁, hp, hg, hstore, hlast⟩

theorem exists_runOn_run (host : Host) (s : Settings) (w : Workspace) (p : Preparation)
    (g : Generated) (hp : Run.prepared host s w.store = .ok p)
    (hg : Run.generated host s w.store = .ok g) :
    ∃ w₁ : Workspace, w₁.store = w.store ∧ ∀ r w₂,
      (Run.lastStage host s p g).runOn w₁ = (.ok r, w₂) → (run host s).runOn w = (.ok r, w₂) := by
  have hstages := (Run.readStages_eq_ok_iff host s w.store p g).2 ⟨hp, hg⟩
  cases course_run host s w with
  | unread f w₁ hread hstore hending => exact nomatch hstages.symm.trans hread
  | unfinished p' g' f w₁ w₂ hread hstore hlast hending =>
      obtain ⟨rfl, rfl⟩ := Prod.mk.inj (Except.ok.inj (hstages.symm.trans hread))
      exact ⟨w₁, hstore, fun r w₃ hok => nomatch (Prod.mk.inj (hlast.symm.trans hok)).1⟩
  | finished p' g' r w₁ w₂ hread hstore hlast hending =>
      obtain ⟨rfl, rfl⟩ := Prod.mk.inj (Except.ok.inj (hstages.symm.trans hread))
      exact ⟨w₁, hstore, fun r' w₃ hok => hending.trans (hlast.symm.trans hok)⟩

end LocaleKeys
