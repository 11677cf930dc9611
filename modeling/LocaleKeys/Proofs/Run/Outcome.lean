import LocaleKeys.Proofs.Run.Formatting
import LocaleKeys.Proofs.Run.Parts

/-!
# What an action makes of the files

Most actions look at nothing but the files: what has been recorded and called before makes no
difference to what they give and what they leave (`FollowsFiles`). Such an action is known by its
outcome on every store. Writing, staging and formatting are of this kind.
-/

namespace LocaleKeys

namespace Action

variable {α β : Type}

/-- What an action gives and what it leaves of the files, when it is the first one. -/
def outcome (a : Action α) (s : Store) : Except Failure α × Store :=
  ((a.runOn { store := s }).1, (a.runOn { store := s }).2.store)

/-- Whether what an action gives and what it leaves of the files depends on the files alone. -/
def FollowsFiles (a : Action α) : Prop :=
  ∀ w, ((a.runOn w).1, (a.runOn w).2.store) = a.outcome w.store

theorem FollowsFiles.fst_runOn {a : Action α} (h : a.FollowsFiles) (w : Workspace) :
    (a.runOn w).1 = (a.outcome w.store).1 := (Prod.ext_iff.1 (h w)).1

theorem FollowsFiles.outcome_eq {a : Action α} (h : a.FollowsFiles) (w w' : Workspace)
    (result : Except Failure α) (hrun : a.runOn w = (result, w')) :
    a.outcome w.store = (result, w'.store) := by
  rw [← h w, hrun]

theorem Reads.followsFiles {a : Action α} {f : Store → Except Failure α} (h : a.Reads f) :
    a.FollowsFiles := by
  intro w
  obtain ⟨w₁, hrun, hstore⟩ := h.exists_runOn_eq _ _ w
  obtain ⟨w₂, hrun', hstore'⟩ := h.exists_runOn_eq _ _ { store := w.store }
  rw [outcome, hrun, hrun', hstore, hstore']

theorem FollowsFiles.bind {a : Action α} {k : α → Action β} (ha : a.FollowsFiles)
    (hk : ∀ x, (k x).FollowsFiles) : (a >>= k).FollowsFiles := by
  intro w
  rcases hrun : a.runOn w with ⟨result, w₁⟩
  have hsame := ha.outcome_eq w w₁ result hrun
  rcases hrun' : a.runOn { store := w.store } with ⟨result', w₂⟩
  obtain ⟨rfl, hstore⟩ := Prod.mk.inj
    ((ha.outcome_eq { store := w.store } w₂ result' hrun').symm.trans hsame)
  rw [outcome]
  cases result' with
  | error e =>
      rw [runOn_bind_of_error a k w w₁ e hrun, runOn_bind_of_error a k _ w₂ e hrun', hstore]
  | ok x =>
      rw [runOn_bind_of_ok a k w w₁ x hrun, runOn_bind_of_ok a k _ w₂ x hrun', hk x w₁,
        hk x w₂, hstore]

/-- The outcome of an action in two parts is put together from theirs. -/
theorem outcome_bind (a : Action α) (k : α → Action β) (hk : ∀ x, (k x).FollowsFiles) (s : Store) :
    (a >>= k).outcome s =
      match a.outcome s with
      | (.ok x, s') => (k x).outcome s'
      | (.error e, s') => (.error e, s') := by
  unfold outcome
  rcases hrun : a.runOn { store := s } with ⟨e | x, w₁⟩
  · rw [runOn_bind_of_error a k _ w₁ e hrun]
  · rw [runOn_bind_of_ok a k _ w₁ x hrun]
    exact hk x w₁

theorem followsFiles_change (f : Store → Except StoreFault α × Store) :
    (change f).FollowsFiles := by
  intro w
  have hget : ∀ w, (get : Action Workspace).runOn w = (.ok w, w) := fun _ => rfl
  rw [outcome, change, runOn_bind_of_ok _ _ w w w (hget w),
    runOn_bind_of_ok _ _ _ _ _ (hget { store := w.store })]
  rcases f w.store with ⟨e | x, s⟩ <;> rfl

theorem isCompositional_followsFiles : IsCompositional fun _ a => a.FollowsFiles where
  pure x := (reads_pure x).followsFiles
  bind := FollowsFiles.bind
  failing f _ := (reads_throw f).followsFiles
  record _ _ _ := (reads_record _ _ _).followsFiles
  inspect f := (reads_inspect f).followsFiles
  ofStore f _ := (reads_ofStore f).followsFiles
  change := followsFiles_change

end Action

theorem Artifact.followsFiles_write (host : Host) (directory : Text) (skip : Bool) (a : Artifact) :
    (write host directory skip a).FollowsFiles :=
  Action.isCompositional_followsFiles.write host directory skip a

theorem Artifact.followsFiles_writeAll (host : Host) (directory : Text) (skip : Bool)
    (as : List Artifact) : (writeAll host directory skip as).FollowsFiles :=
  Action.isCompositional_followsFiles.writeAll host directory skip as

theorem Verification.followsFiles_stage (host : Host) (staging : Text) (as : List Artifact) :
    (stage host staging as).FollowsFiles :=
  Action.isCompositional_followsFiles.stage host staging as

theorem Formatter.followsFiles_call (host : Host) (tool : Tool) (arguments : List Text) :
    (call host tool arguments).FollowsFiles := by
  intro w
  rw [Action.outcome, runOn_call, runOn_call]

theorem Run.followsFiles_formatWith (host : Host) (s : Settings) (paths : List Text) :
    (formatWith host s paths).FollowsFiles :=
  Action.isCompositional_followsFiles.formatWith host (Action.reads_throw .interrupted).followsFiles
    (Formatter.followsFiles_call host) s paths

end LocaleKeys
