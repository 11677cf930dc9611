import LocaleKeys.Proofs.Artifact.Verification

/-!
# What happens in the staging directory stays there

Staging puts artifacts into the staging directory one after the other, and a formatter touches only
the files that it is handed. So at every point of a verification the files are those from before
with the staging directory beside them (`IsStaged`), and when the directory is removed they are as
before, however the verification ends (`get?_runOn_verify`).
-/

namespace LocaleKeys

namespace Verification

theorem exists_eq_append_of_locate_staging (s : Store) (here staging name : Text) (k : Location)
    (hhere : Path.isAbsolute here = true) (hstaging : Path.isAbsolute staging = true)
    (hname : Path.IsEntryName name)
    (h : s.locate here (Path.join staging name) = .ok k) : k = locationOf staging ++ [name] := by
  have hne : staging ≠ [] := by
    rintro rfl
    exact nomatch hstaging
  obtain ⟨parent, rfl, hparent, -⟩ := Store.exists_of_locate_join s here staging name k hne hname h
  rw [Store.eq_segments_of_locate s here staging parent hhere hparent, Path.join, if_pos hstaging,
    locationOf]

end Verification

namespace Artifact

theorem Written.isStaged {mask : Mode} {here staging : Text} {as : List Artifact} {s s₁ s₂ : Store}
    (h : Written mask here staging as s₁ s₂) (hhere : Path.isAbsolute here = true)
    (hstaging : Path.isAbsolute staging = true) (hnames : ∀ a ∈ as, Path.IsEntryName a.name)
    (hstaged : Verification.IsStaged (Verification.locationOf staging) s s₁) :
    Verification.IsStaged (Verification.locationOf staging) s s₂ := by
  induction h with
  | nil s₁ => exact hstaged
  | cons a as s₁ s₂ parent data hdata hlocate hparent hfile hrest ih =>
      obtain ⟨hname, hnames⟩ := List.forall_mem_cons.1 hnames
      refine ih hnames (hstaged.of_forall_ne fun k hk => Store.get?_set_of_ne _ _ _ _ ?_)
      rw [Verification.exists_eq_append_of_locate_staging s₁ here staging a.name _ hhere hstaging
        hname hlocate]
      exact hk a.name

end Artifact

namespace Verification

theorem isAbsolute_stagingPath (here : Text) (s : Store) :
    Path.isAbsolute (stagingPath here s) = true := by
  obtain ⟨k, -, hpath, -⟩ := exists_stagingPath_eq_stagingName s here _ rfl
  rw [hpath]
  rfl

theorem stagingPath_ne_nil (here : Text) (s : Store) : stagingPath here s ≠ [] := by
  intro hnil
  have habsolute := isAbsolute_stagingPath here s
  rw [hnil] at habsolute
  exact nomatch habsolute

section Stage

variable (host : Host) (staging : Text) (hhere : Path.isAbsolute host.here = true)
variable (hstaging : staging ≠ [])
include hhere hstaging

theorem written_of_stage_eq_ok (as : List Artifact) (paths : List Text) (w w' : Workspace)
    (hnames : ∀ a ∈ as, Path.IsEntryName a.name)
    (h : (stage host staging as).runOn w = (.ok paths, w')) :
    paths = as.map (fun a => Path.join staging a.name) ∧
      Artifact.Written host.umask host.here staging as w.store w'.store := by
  induction as generalizing w paths with
  | nil =>
      obtain ⟨hpaths, rfl⟩ := Prod.mk.inj h
      exact ⟨(Except.ok.inj hpaths).symm, .nil _⟩
  | cons a as ih =>
      obtain ⟨hname, hnames⟩ := List.forall_mem_cons.1 hnames
      obtain ⟨data, w₁, hencode, h⟩ := Action.exists_of_runOn_bind_eq_ok _ _ _ _ _ h
      obtain ⟨hdata, rfl⟩ := Prod.mk.inj hencode
      obtain ⟨u, w₂, hput, h⟩ := Action.exists_of_runOn_bind_eq_ok _ _ _ _ _ h
      obtain ⟨rest, w₃, hstage, h⟩ := Action.exists_of_runOn_bind_eq_ok _ _ _ _ _ h
      obtain ⟨hpaths, rfl⟩ := Prod.mk.inj h
      obtain ⟨parent, hl, hparent, hfile, hset⟩ := Store.exists_of_replace_join_eq_ok _ _ _ _ _ _ _
        _ hhere hstaging hname.slash_not_mem (Artifact.runOn_put_eq_ok host _ data _ w₂ hput)
      obtain ⟨rfl, hrest⟩ := ih rest w₂ hnames hstage
      rw [hset] at hrest
      exact ⟨(Except.ok.inj hpaths).symm, .cons a as _ _ parent data
        ((mapError_eq_ok_iff _ _ _).1 hdata) hl hparent hfile hrest⟩

/-- A failure leaves a beginning of the artifacts staged, and is that of the one that follows. -/
theorem stopped_of_stage_eq_error (as : List Artifact) (w w' : Workspace) (e : Failure)
    (hnames : ∀ a ∈ as, Path.IsEntryName a.name)
    (h : (stage host staging as).runOn w = (.error e, w')) :
    Artifact.Stopped host staging false as w.store w'.store e := by
  induction as generalizing w with
  | nil => exact nomatch (Prod.mk.inj h).1
  | cons a as ih =>
      obtain ⟨hname, hnames⟩ := List.forall_mem_cons.1 hnames
      rcases Action.runOn_bind_eq_error _ _ _ _ _ h with hencode | ⟨data, w₁, hencode, h⟩
      · obtain ⟨hdata, rfl⟩ := Prod.mk.inj hencode
        obtain ⟨f, hf, rfl⟩ := exists_of_mapError_eq_error _ _ _ hdata
        exact ⟨[], a, as, rfl, .nil _, .unencoded f hf⟩
      obtain ⟨hdata, rfl⟩ := Prod.mk.inj hencode
      rcases Action.runOn_bind_eq_error _ _ _ _ _ h with hput | ⟨u, w₂, hput, h⟩
      · obtain ⟨f, hreplace, rfl⟩ := Action.exists_of_runOn_change_eq_error _ _ _ _ hput
        have hsame := Store.eq_of_replace_eq_error _ _ _ _ _ _ _ hhere f hreplace
        rw [hsame] at hreplace ⊢
        exact ⟨[], a, as, rfl, .nil _,
          .refused data f ((mapError_eq_ok_iff _ _ _).1 hdata) hreplace⟩
      · obtain ⟨parent, hl, hparent, hfile, hset⟩ := Store.exists_of_replace_join_eq_ok _ _ _ _ _ _
          _ _ hhere hstaging hname.slash_not_mem (Artifact.runOn_put_eq_ok host _ data _ w₂ hput)
        rcases Action.runOn_bind_eq_error _ _ _ _ _ h with h | ⟨paths, w₃, -, h⟩
        · obtain ⟨done, b, rest, rfl, hwritten, hwhy⟩ := ih w₂ hnames h
          rw [hset] at hwritten
          exact ⟨a :: done, b, rest, rfl, .cons a done _ _ parent data
            ((mapError_eq_ok_iff _ _ _).1 hdata) hl hparent hfile hwritten, hwhy⟩
        · exact nomatch (Prod.mk.inj h).1

end Stage

/-- Whether an action changes nothing but the files at the paths it is given, however it ends. -/
def TouchesOnly (here : Text) (format : List Text → Action Unit) : Prop :=
  ∀ paths w, w.store.LeadToFiles here paths →
    ∀ l, (∀ p ∈ paths, w.store.locate here p ≠ .ok l) →
      ((format paths).runOn w).2.store.get? l = w.store.get? l

theorem standing_eq_same_iff (committed fresh : Option Bytes) :
    standing committed fresh = .same ↔ committed ≠ none ∧ committed = fresh := by
  cases committed with
  | none => simp [standing]
  | some bytes =>
      rw [standing]
      split
      · next h => exact iff_of_true rfl ⟨Option.some_ne_none bytes, h⟩
      · next h => exact iff_of_false (by decide) fun hsame => h hsame.2

/-- What verification compares: the committed files and the formatted copies, as the formatting
leaves both. None of them is refused. -/
theorem exists_of_compareStaged_eq_ok (host : Host) (directory staging : Text)
    (hhere : Path.isAbsolute host.here = true) (hstaging : staging ≠ []) (as : List Artifact)
    (hnames : ∀ a ∈ as, Path.IsEntryName a.name) (format : List Text → Action Unit)
    (w w' : Workspace) (standings : List (Text × Standing))
    (h : (compareStaged host directory staging format as).runOn w = (.ok standings, w')) :
    ∃ w₁ w₂ w₃, w₁.store = w.store ∧
      (stage host staging as).runOn w₁ = (.ok (as.map fun a => Path.join staging a.name), w₂) ∧
      Artifact.Written host.umask host.here staging as w.store w₂.store ∧
      (format (as.map fun a => Path.join staging a.name)).runOn w₂ = (.ok (), w₃) ∧
      (∀ a ∈ as, ∀ f, ¬ Unread host directory w₃.store (a, Path.join staging a.name) f) ∧
      standings = as.map fun a => (a.name, standing
        (w₃.store.content? host.here (Path.join directory a.name))
        (w₃.store.content? host.here (Path.join staging a.name))) := by
  rw [compareStaged, Action.runOn_bind_of_ok _ _ w _ () (Action.runOn_record _ _ _ w)] at h
  obtain ⟨paths, w₂, hstage, h⟩ := Action.exists_of_runOn_bind_eq_ok _ _ _ _ _ h
  obtain ⟨⟨⟩, w₃, hformat, h⟩ := Action.exists_of_runOn_bind_eq_ok _ _ _ _ _ h
  obtain ⟨rfl, hwritten⟩ :=
    written_of_stage_eq_ok host staging hhere hstaging as paths _ w₂ hnames hstage
  obtain ⟨w₄, hcompare, -⟩ := (reads_compareAll host directory
    (as.zip (as.map fun a => Path.join staging a.name))).exists_runOn_eq _ _ w₃
  have hcompared := (Prod.mk.inj (h.symm.trans hcompare)).1.symm
  refine ⟨{ w with journal := w.journal ++ [_] }, w₂, w₃, rfl, hstage, hwritten, hformat,
    fun a ha f => ?_, ?_⟩
  · refine not_unread_of_comparedAll_eq_ok host directory w₃.store _ standings hcompared _ ?_ f
    exact (mem_zip_map_iff _ as a _).2 ⟨ha, rfl⟩
  · rw [eq_of_comparedAll_eq_ok host directory w₃.store _ standings hcompared, map_zip_map]

section Compare

variable (host : Host) (directory staging : Text) (hhere : Path.isAbsolute host.here = true)
variable (hstaging : Path.isAbsolute staging = true)
variable (as : List Artifact) (hnames : ∀ a ∈ as, Path.IsEntryName a.name)
variable (hnodup : (as.map Artifact.name).Nodup)
variable (format : List Text → Action Unit) (hformat : TouchesOnly host.here format)
variable (s : Store)
include hhere hstaging hnames hnodup hformat

theorem isStaged_format (w w' : Workspace)
    (hwritten : Artifact.Written host.umask host.here staging as w.store w'.store)
    (hstaged : IsStaged (locationOf staging) s w.store) :
    IsStaged (locationOf staging) s
      ((format (as.map fun a => Path.join staging a.name)).runOn w').2.store := by
  have hne : staging ≠ [] := by
    rintro rfl
    exact nomatch hstaging
  have hlead := (hwritten.emitted hne hnames hnodup).leadToFiles hne hnames hnodup
    (fun a => Path.join staging a.name) fun _ _ _ => Iff.rfl
  have hstaged' := hwritten.isStaged hhere hstaging hnames hstaged
  refine hstaged'.of_forall_ne fun k hk => hformat _ w' hlead k fun p hp hl => ?_
  obtain ⟨a, ha, rfl⟩ := List.mem_map.1 hp
  exact hk a.name (exists_eq_append_of_locate_staging _ host.here staging a.name k hhere hstaging
    (hnames a ha) hl)

/-- Whatever happens in the staging directory, the files beside it are as before. -/
theorem isStaged_compareStaged (w : Workspace)
    (hstaged : IsStaged (locationOf staging) s w.store) :
    IsStaged (locationOf staging) s
      ((compareStaged host directory staging format as).runOn w).2.store := by
  have hne : staging ≠ [] := by
    rintro rfl
    exact nomatch hstaging
  rw [compareStaged, Action.runOn_bind_of_ok _ _ w _ () (Action.runOn_record _ _ _ w)]
  rcases hstage : (stage host staging as).runOn { w with
    journal := w.journal ++ [⟨.debug, Source.verification,
      "Staging artifacts for verification in " ++ staging⟩] } with ⟨e | paths, w₁⟩
  · -- A failure leaves a beginning of the artifacts staged.
    obtain ⟨done, a, rest, rfl, hwritten, -⟩ :=
      stopped_of_stage_eq_error host staging hhere hne as _ w₁ e hnames hstage
    rw [Action.runOn_bind_of_error _ _ _ w₁ e hstage]
    exact hwritten.isStaged hhere hstaging
      (fun b hb => hnames b (List.mem_append_left _ hb)) hstaged
  · obtain ⟨rfl, hwritten⟩ :=
      written_of_stage_eq_ok host staging hhere hne as paths _ w₁ hnames hstage
    have hformatted := isStaged_format host staging hhere hstaging as hnames hnodup format hformat s
      _ w₁ hwritten hstaged
    rw [Action.runOn_bind_of_ok _ _ _ w₁ _ hstage]
    rcases hrun : (format (as.map fun a => Path.join staging a.name)).runOn w₁ with ⟨e | u, w₂⟩
    · rw [Action.runOn_bind_of_error _ _ w₁ w₂ e hrun]
      rwa [hrun] at hformatted
    · -- Comparing only reads.
      obtain ⟨w₃, hcompare, hsame⟩ := (reads_compareAll host directory
        (as.zip (as.map fun a => Path.join staging a.name))).exists_runOn_eq _ _ w₂
      rw [Action.runOn_bind_of_ok _ _ w₁ w₂ u hrun, hcompare, hsame]
      rwa [hrun] at hformatted

end Compare

theorem exists_stagingPath_eq_of_isTree (s : Store) (here : Text) (hs : s.IsTree) :
    ∃ fresh : Text, stagingPath here s = Path.ofNames (stagedAt fresh) ∧
      locationOf (stagingPath here s) = stagedAt fresh ∧ s.get? (stagedAt fresh) = none := by
  obtain ⟨k, -, hpath, hnew⟩ := exists_stagingPath_eq_stagingName s here _ rfl
  refine ⟨stagingName k, hpath, ?_, ?_⟩
  · rw [hpath]
    exact Path.segments_ofNames _ (List.forall_mem_append.2
      ⟨isEntryName_stagingParent, List.forall_mem_singleton.2 (isEntryName_stagingName k)⟩)
  · cases he : s.get? (stagedAt (stagingName k)) with
    | none => rfl
    | some e =>
        -- What is there stands in a directory, and that lists it among the names taken.
        have hnames := (Store.names_eq_ok_iff s here _ _).2
          ⟨_, locate_stagingParent s here, (hs _ _ e he).2, rfl⟩
        rw [hnames] at hnew
        exact absurd (Store.mem_children_of_get?_eq_some s _ _ e he) hnew

theorem isStaged_stagingPath (s : Store) (here : Text) (hs : s.IsTree) :
    IsStaged (locationOf (stagingPath here s)) s
      (s.set (locationOf (stagingPath here s)) (.directory stagingMode)) := by
  obtain ⟨fresh, -, hlocation, hfree⟩ := exists_stagingPath_eq_of_isTree s here hs
  rw [hlocation]
  exact isStaged_set s hs _ (by simp [stagedAt]) hfree

/-- However a verification ends, all entries are as before. -/
theorem get?_runOn_verify (host : Host) (directory : Text) (format : List Text → Action Unit)
    (as : List Artifact) (w : Workspace) (hhere : Path.isAbsolute host.here = true)
    (hs : w.store.IsTree) (hnames : ∀ a ∈ as, Path.IsEntryName a.name)
    (hnodup : (as.map Artifact.name).Nodup) (hformat : TouchesOnly host.here format)
    (l : Location) :
    ((verify host directory format as).runOn w).2.store.get? l = w.store.get? l := by
  have hstaged := isStaged_compareStaged host directory _ hhere
    (isAbsolute_stagingPath host.here w.store) as hnames hnodup format hformat w.store { w with
      store := w.store.set (locationOf (stagingPath host.here w.store)) (.directory stagingMode) }
    (isStaged_stagingPath w.store host.here hs)
  rw [runOn_verify host directory format as w _ _ rfl]
  exact get?_eraseTree_of_besides _ _ _ hstaged.toBesides l

end Verification

end LocaleKeys
