import LocaleKeys.Proofs.Document.Defects
import LocaleKeys.Proofs.Run.Outcome
import LocaleKeys.Proofs.Run.Emission

/-!
# The defects that a run looks for

Each stage of a run looks for one kind of defect of the files or the settings. The defects are told
here without the run, in the order of the stages (`defects`), and one of them is the first that is
there, or there is none (`IsFirstDefect`). A problem that the reading stages report has the kind of
the first defect, and if they succeed none of their defects is there.
-/

namespace LocaleKeys

/-- Whether a kind is that of the first of some defects that is there, or no defect is there. -/
def IsFirstDefect : List (ProblemKind × Prop) → Option ProblemKind → Prop
  | [], kind? => kind? = none
  | (kind, p) :: rest, kind? => p ∧ kind? = some kind ∨ ¬ p ∧ IsFirstDefect rest kind?

theorem IsFirstDefect.unique (ds : List (ProblemKind × Prop)) (a b : Option ProblemKind)
    (ha : IsFirstDefect ds a) (hb : IsFirstDefect ds b) : a = b := by
  induction ds with
  | nil => exact Eq.trans ha (Eq.symm hb)
  | cons d ds ih =>
      obtain ⟨kind, p⟩ := d
      rcases ha with ⟨hp, rfl⟩ | ⟨hp, ha⟩
      · rcases hb with ⟨-, rfl⟩ | ⟨hnot, -⟩
        · rfl
        · exact absurd hp hnot
      · rcases hb with ⟨hp', -⟩ | ⟨-, hb⟩
        · exact absurd hp' hp
        · exact ih ha hb

theorem IsFirstDefect.append_some {ds : List (ProblemKind × Prop)} {kind : ProblemKind}
    (h : IsFirstDefect ds (some kind)) (es : List (ProblemKind × Prop)) :
    IsFirstDefect (ds ++ es) (some kind) := by
  induction ds with
  | nil => exact nomatch h
  | cons d ds ih => exact h.imp id fun ⟨hp, hrest⟩ => ⟨hp, ih hrest⟩

theorem IsFirstDefect.append_of_none {ds es : List (ProblemKind × Prop)}
    {kind? : Option ProblemKind} (hds : IsFirstDefect ds none) (hes : IsFirstDefect es kind?) :
    IsFirstDefect (ds ++ es) kind? := by
  induction ds with
  | nil => exact hes
  | cons d ds ih =>
      rcases hds with ⟨-, hnone⟩ | ⟨hp, hds⟩
      · exact nomatch hnone
      · exact .inr ⟨hp, ih hds⟩

namespace Run

variable (host : Host) (s : Settings) (store : Store)

def readingDefects : List (ProblemKind × Prop) :=
  [(.directoryNotFound, store.isDirectory host.here s.inputPath = false ∨
      store.isDirectory host.here s.outputPath = false ∨
      ∃ f, Document.files host s.inputPath Document.suffix store = .error f),
    (.noInputFound, Document.HoldsNone s.inputPath store host.here),
    (.malformedInput, ∃ path, Document.IsFirst s.inputPath store host.here path ∧
      Document.IsMalformed host store s.excludeKey path),
    (.invalidKeyName, ∃ path, Document.IsFirst s.inputPath store host.here path ∧
      ∃ t, Document.IsTreeOf host store s.excludeKey path t ∧ Document.IsMisnamed t),
    (.invalidOutputMode,
      s.outputMode ≠ OutputMode.single.name ∧ s.outputMode ≠ OutputMode.dual.name)]

def withStaging (here : Text) (store : Store) : Store :=
  store.set (Verification.locationOf (Verification.stagingPath here store))
    (.directory Verification.stagingMode)

def staged (g : Generated) : Except Failure (List Text) × Store :=
  (Verification.stage host (Verification.stagingPath host.here store) g.artifacts).outcome
    (withStaging host.here store)

/-- What putting the artifacts of a run into files comes to: they are staged, or written. -/
def stored (g : Generated) : Except Failure (List Text) :=
  if s.noEmit then (staged host store g).1
  else ((Artifact.writeAll host s.outputPath (!s.format) g.artifacts).outcome store).1

/-- The files at the time of the comparison: with the staged artifacts, formatted if the settings
ask for it. -/
def compared (g : Generated) : Store :=
  ((formatWith host s (g.artifacts.map fun a =>
    Path.join (Verification.stagingPath host.here store) a.name)).outcome (staged host store g).2).2

def rendition (g : Generated) (a : Artifact) : Option Bytes :=
  (compared host s store g).content? host.here
    (Path.join (Verification.stagingPath host.here store) a.name)

/-- Whether a committed artifact is no file, or a file with other bytes than the formatted copy. -/
def HasDrift (g : Generated) : Prop :=
  ∃ a ∈ g.artifacts,
    (compared host s store g).isFile host.here (Path.join s.outputPath a.name) = false ∨
    (compared host s store g).content? host.here (Path.join s.outputPath a.name) ≠
      rendition host s store g a

/-- Whether the system refuses an artifact: to store it, or to read its files when all are stored
and compared. -/
inductive IsRefused (g : Generated) : Prop
  | stored (e : SystemError) (h : stored host s store g = .error (.system e))
  | unread (a : Artifact) (f : StoreFault) (hemit : s.noEmit = true)
      (hstored : ∃ paths, stored host s store g = .ok paths) (ha : a ∈ g.artifacts)
      (h : Verification.Unread host s.outputPath (compared host s store g)
        (a, Path.join (Verification.stagingPath host.here store) a.name) f)

/-- The defects that the last stage looks for: an artifact that the system refuses, and drift of the
committed files if they are compared. -/
def storingDefects : List (ProblemKind × Prop) :=
  [(.generation, ∃ g, generated host s store = .ok g ∧ IsRefused host s store g),
    (.driftMismatch, s.noEmit = true ∧
      ∃ g, generated host s store = .ok g ∧ HasDrift host s store g)]

/-- The defects that a run looks for, in the order of its stages. -/
def defects : List (ProblemKind × Prop) :=
  readingDefects host s store ++ storingDefects host s store

section Selected

variable (path : Text) (hselected : Document.selected host s.inputPath store = .ok path)
include hselected

theorem exists_isFirst_and_iff (P : Text → Prop) :
    (∃ path, Document.IsFirst s.inputPath store host.here path ∧ P path) ↔ P path := by
  have hlisting := ((Document.selected_eq_ok_iff _ _ _ _).1 hselected).1
  have hiff := Document.selected_eq_ok_iff_isFirst host s.inputPath store hlisting
  constructor
  · rintro ⟨path', hfirst, h⟩
    obtain rfl := Except.ok.inj (hselected.symm.trans ((hiff path').2 hfirst))
    exact h
  · exact fun h => ⟨path, (hiff path).1 hselected, h⟩

theorem not_holdsNone_of_selected : ¬ Document.HoldsNone s.inputPath store host.here := by
  have hlisting := ((Document.selected_eq_ok_iff _ _ _ _).1 hselected).1
  exact Document.not_holdsNone_of_isFirst _ _ _ path
    ((Document.selected_eq_ok_iff_isFirst host s.inputPath store hlisting path).1 hselected)

end Selected

theorem not_directory_defect (p : Preparation) (paths : List Text)
    (hp : prepared host s store = .ok p)
    (hcandidates : Document.candidates host s.inputPath store = .ok paths) :
    ¬ (store.isDirectory host.here s.inputPath = false ∨
      store.isDirectory host.here s.outputPath = false ∨
      ∃ f, Document.files host s.inputPath Document.suffix store = .error f) := by
  obtain ⟨hinput, houtput⟩ := (exists_prepared_iff host s store).1 ⟨p, hp⟩
  obtain ⟨-, hlisting, hfiles⟩ := (Document.candidates_eq_ok_iff _ _ _ _).1 hcandidates
  rintro (h | h | ⟨f, h⟩)
  · cases hinput.symm.trans h
  · cases houtput.symm.trans h
  · rw [Document.files, hlisting, if_neg Bool.false_ne_true, hfiles] at h
    cases h

theorem exists_candidates_of_selected (path : Text)
    (h : Document.selected host s.inputPath store = .ok path) :
    ∃ paths, Document.candidates host s.inputPath store = .ok paths := by
  obtain ⟨paths, hpaths, -⟩ := exists_of_bind_eq_ok _ _ _ h
  exact ⟨paths, hpaths⟩

theorem kind_of_prepared_eq_error (p : Problem) (h : prepared host s store = .error (.problem p)) :
    p.kind = .directoryNotFound ∧ (store.isDirectory host.here s.inputPath = false ∨
      store.isDirectory host.here s.outputPath = false) := by
  unfold prepared at h
  split at h
  · next hinput =>
      rw [← Failure.problem.inj (Except.error.inj h)]
      exact ⟨rfl, .inl (by simpa using hinput)⟩
  · split at h
    · next houtput =>
        rw [← Failure.problem.inj (Except.error.inj h)]
        exact ⟨rfl, .inr (by simpa using houtput)⟩
    · exact nomatch h

theorem kind_of_candidates_eq_error (p : Problem)
    (h : Document.candidates host s.inputPath store = .error (.problem p)) :
    p.kind = .directoryNotFound ∧ (store.isDirectory host.here s.inputPath = false ∨
      ∃ f, Document.files host s.inputPath Document.suffix store = .error f) := by
  unfold Document.candidates at h
  split at h
  · next hinput =>
      rw [← Failure.problem.inj (Except.error.inj h)]
      exact ⟨rfl, .inl (by simpa using hinput)⟩
  · split at h
    · exact nomatch h
    · next e hfiles =>
        rw [← Failure.problem.inj (Except.error.inj h)]
        exact ⟨rfl, .inr ⟨_, hfiles⟩⟩
    · next f hne hfiles => exact absurd (Except.error.inj h) (Failure.ofStore_ne_problem f p)

/-- What loading the selected document reports is that it is malformed, or that a key of its tree is
misnamed. -/
theorem kind_of_loaded_eq_error (path : Text) (p : Problem)
    (hselected : Document.selected host s.inputPath store = .ok path)
    (h : Document.loaded host s.inputPath s.excludeKey store = .error (.problem p)) :
    p.kind = .malformedInput ∧ Document.IsMalformed host store s.excludeKey path ∨
      p.kind = .invalidKeyName ∧
        ∃ t, Document.IsTreeOf host store s.excludeKey path t ∧ Document.IsMisnamed t := by
  rcases bind_eq_error_cases _ _ _ h with h | ⟨path', hpath, h⟩
  · exact nomatch hselected.symm.trans h
  obtain rfl := Except.ok.inj (hselected.symm.trans hpath)
  rcases bind_eq_error_cases _ _ _ h with h | ⟨whole, hread, h⟩
  · exact .inl (Document.isMalformed_of_read_eq_error host store s.excludeKey path p h)
  rcases bind_eq_error_cases _ _ _ h with h | ⟨t, ht, h⟩
  · obtain ⟨q, hq, hqp⟩ := exists_of_mapError_eq_error _ _ _ h
    obtain rfl := Failure.problem.inj hqp
    exact .inl (Document.isMalformed_of_unwrapped_eq_error host store s.excludeKey path whole q
      hread hq)
  rcases bind_eq_error_cases _ _ _ h with h | ⟨u, -, h⟩
  · obtain ⟨q, hq, hqp⟩ := exists_of_mapError_eq_error _ _ _ h
    obtain rfl := Failure.problem.inj hqp
    refine .inr ⟨Document.kind_of_checkNames_eq_error t q hq,
      t, ⟨whole, hread, (mapError_eq_ok_iff _ _ _).1 ht⟩, ?_⟩
    by_contra hnot
    rw [(Document.checkNames_eq_ok_iff_not_isMisnamed t).2 hnot] at hq
    exact nomatch hq
  · exact nomatch h

theorem kind_of_ofTree_eq_error {α : Type} (lint : Bool) (t : KeyTree α) (p : Problem)
    (h : Rendering.ofTree s.outputMode lint t = .error p) : p.kind = .invalidOutputMode ∧
      s.outputMode ≠ OutputMode.single.name ∧ s.outputMode ≠ OutputMode.dual.name := by
  have hne : ∀ mode : OutputMode, s.outputMode ≠ mode.name := by
    intro mode hmode
    rw [hmode, Rendering.ofTree_name] at h
    cases h
  rw [Rendering.ofTree, Rendering.artifacts] at h
  split at h
  · cases h
  · rw [← Except.error.inj h]
    exact ⟨rfl, hne .single, hne .dual⟩

theorem no_defect_of_loaded (path : Text) (t : KeyTree Json)
    (h : Document.loaded host s.inputPath s.excludeKey store = .ok (path, t)) :
    (¬ ∃ path, Document.IsFirst s.inputPath store host.here path ∧
      Document.IsMalformed host store s.excludeKey path) ∧
    ¬ ∃ path, Document.IsFirst s.inputPath store host.here path ∧
      ∃ t, Document.IsTreeOf host store s.excludeKey path t ∧ Document.IsMisnamed t := by
  obtain ⟨hselected, bytes, whole, hbytes, hparse, hunwrapped, hnames⟩ :=
    (Document.loaded_eq_ok_iff _ _ _ _ _ _).1 h
  have htree : Document.IsTreeOf host store s.excludeKey path t :=
    ⟨whole, (Document.read_eq_ok_iff _ _ _ _).2 ⟨bytes, hbytes, hparse⟩, hunwrapped⟩
  rw [exists_isFirst_and_iff host s store _ hselected,
    exists_isFirst_and_iff host s store _ hselected]
  refine ⟨Document.not_isMalformed_of_isTreeOf _ _ _ _ t htree, ?_⟩
  rintro ⟨t', htree', hmisnamed⟩
  obtain rfl := Document.IsTreeOf.unique host store htree htree'
  exact (Document.checkNames_eq_ok_iff_not_isMisnamed t).1 hnames hmisnamed

/-- A problem of the reading stages has the kind of their first defect. -/
theorem isFirstDefect_of_readStages_eq_error (p : Problem)
    (h : readStages host s store = .error (.problem p)) :
    IsFirstDefect (readingDefects host s store) (some p.kind) := by
  rcases bind_eq_error_cases _ _ _ h with h | ⟨prepared, hprepared, h⟩
  · obtain ⟨hkind, hdefect⟩ := kind_of_prepared_eq_error host s store p h
    exact .inl ⟨hdefect.imp_right .inl, congrArg some hkind⟩
  rcases bind_eq_error_cases _ _ _ h with h | ⟨g, -, h⟩
  swap
  · cases h
  cases hselected : Document.selected host s.inputPath store with
  | error f =>
      -- Without a document there is nothing to load.
      have hloaded : Document.loaded host s.inputPath s.excludeKey store = .error f := by
        rw [Document.loaded, hselected]
        rfl
      rw [generated, hloaded] at h
      obtain rfl := Except.error.inj h
      rcases bind_eq_error_cases _ _ _ hselected with hcandidates | ⟨paths, hcandidates, hnone⟩
      · obtain ⟨hkind, hdefect⟩ := kind_of_candidates_eq_error host s store p hcandidates
        exact .inl ⟨hdefect.imp_right .inr, congrArg some hkind⟩
      · cases paths with
        | cons path paths => cases hnone
        | nil =>
            rw [← Failure.problem.inj (Except.error.inj hnone)]
            exact .inr ⟨not_directory_defect host s store prepared [] hprepared hcandidates,
              .inl ⟨Document.holdsNone_of_candidates_eq_nil _ _ _ hcandidates, rfl⟩⟩
  | ok path =>
      obtain ⟨paths, hcandidates⟩ := exists_candidates_of_selected host s store path hselected
      have hfirst := exists_isFirst_and_iff host s store path hselected
      refine .inr ⟨not_directory_defect host s store prepared paths hprepared hcandidates,
        .inr ⟨not_holdsNone_of_selected host s store path hselected, ?_⟩⟩
      rcases bind_eq_error_cases _ _ _ h with h | ⟨⟨path', t⟩, hloaded, h⟩
      · rcases kind_of_loaded_eq_error host s store path p hselected h with
          ⟨hkind, hmalformed⟩ | ⟨hkind, t, htree, hmisnamed⟩
        · exact .inl ⟨(hfirst _).2 hmalformed, congrArg some hkind⟩
        · refine .inr ⟨fun hmalformed => ?_,
            .inl ⟨(hfirst _).2 ⟨t, htree, hmisnamed⟩, congrArg some hkind⟩⟩
          exact Document.not_isMalformed_of_isTreeOf _ _ _ _ t htree ((hfirst _).1 hmalformed)
      · rcases bind_eq_error_cases _ _ _ h with h | ⟨artifacts, -, h⟩
        · obtain ⟨q, hq, hqp⟩ := exists_of_mapError_eq_error _ _ _ h
          obtain rfl := Failure.problem.inj hqp
          obtain ⟨hkind, hmode⟩ := kind_of_ofTree_eq_error s _ t q hq
          obtain ⟨hmalformed, hmisnamed⟩ := no_defect_of_loaded host s store path' t hloaded
          exact .inr ⟨hmalformed, .inr ⟨hmisnamed, .inl ⟨hmode, congrArg some hkind⟩⟩⟩
        · cases h

theorem isFirstDefect_none_of_readStages_eq_ok (p : Preparation) (g : Generated)
    (h : readStages host s store = .ok (p, g)) :
    IsFirstDefect (readingDefects host s store) none := by
  obtain ⟨hp, hg⟩ := (readStages_eq_ok_iff _ _ _ _ _).1 h
  obtain ⟨mode, t, hmode, hloaded, -⟩ := exists_tree_of_generated host s store g hg
  obtain ⟨hselected, -⟩ := (Document.loaded_eq_ok_iff _ _ _ _ _ _).1 hloaded
  obtain ⟨paths, hcandidates⟩ := exists_candidates_of_selected host s store _ hselected
  obtain ⟨hmalformed, hmisnamed⟩ := no_defect_of_loaded host s store _ t hloaded
  refine .inr ⟨not_directory_defect host s store p paths hp hcandidates,
    .inr ⟨not_holdsNone_of_selected host s store _ hselected,
      .inr ⟨hmalformed, .inr ⟨hmisnamed, .inr ⟨?_, rfl⟩⟩⟩⟩⟩
  rintro ⟨hsingle, hdual⟩
  cases mode with
  | single => exact hsingle hmode
  | dual => exact hdual hmode

end Run

end LocaleKeys
