import LocaleKeys.Proofs.Run.Emission

/-!
# Drift is detected exactly

A run that writes leaves the artifacts of the loaded tree behind, next to the document it has loaded
(`Committed`). Overwriting the document keeps them, whatever it holds then. A run that compares
tells the committed artifacts apart from those of the tree it loads itself, so that it succeeds
exactly if both trees have the same skeleton (`run_detects_drift_exactly`).
-/

namespace LocaleKeys

namespace Store

/-- The store in which the file that a path leads to holds other bytes. -/
def overwritten (here path : Text) (bytes : Bytes) (s : Store) : Store :=
  match s.entry here path with
  | .ok (l, .file _ mode) => s.set l (.file bytes mode)
  | _ => s

theorem overwritten_eq_set (here path : Text) (bytes old : Bytes) (s : Store) (l : Location)
    (mode : Mode) (hl : s.locate here path = .ok l) (h : s.get? l = some (.file old mode)) :
    s.overwritten here path bytes = s.set l (.file bytes mode) := by
  rw [overwritten, (entry_eq_ok_iff s here path l _).2 ⟨hl, h⟩]

end Store

theorem Verification.canStage_set_of_get?_eq_file (s : Store) (l : Location) (old bytes : Bytes)
    (m mode : Mode) (h : s.get? l = some (.file old m)) (hstage : CanStage s) :
    CanStage (s.set l (.file bytes mode)) := by
  have hdirs := Store.isDirectoryAt_set_file_iff s l (locationOf stagingParent) bytes mode
    (Store.ne_nil_of_get?_eq_file s l old m h) (Store.not_isDirectoryAt_of_get?_eq_file s l old m h)
  refine ⟨hdirs.2 hstage.isDirectoryAt, ?_⟩
  rw [Store.children_set_of_get?_eq_file s l old bytes m mode h]
  exact hstage.length_children

namespace Run

variable (host : Host) (s : Settings) (mode : OutputMode)

theorem generated_eq_artifactsOfTree (hmode : s.outputMode = mode.name) (store : Store)
    (path : Text) (t : KeyTree Json)
    (h : Document.loaded host s.inputPath s.excludeKey store = .ok (path, t)) :
    generated host s store = .ok ⟨path, (t.paths []).length,
      Rendering.artifactsOfTree mode s.disableEslintQuotes t⟩ := by
  rw [generated_of_loaded host s mode hmode store path t h,
    Rendering.artifactsOf_eq_artifactsOfTree]

theorem exists_of_writing_run (hmode : s.outputMode = mode.name) (hformat : s.format = false)
    (hemit : s.noEmit = false) (hhere : Path.isAbsolute host.here = true) (w w' : Workspace)
    (r : RunResult) (hrun : (run host s).runOn w = (.ok r, w')) (hok : r.ok = true) :
    ∃ t, Document.loaded host s.inputPath s.excludeKey w.store = .ok (r.inputFile, t) ∧
      w.store.isDirectory host.here s.inputPath = true ∧
      w.store.isDirectory host.here s.outputPath = true ∧
      Artifact.Emitted host.umask .keep host.here s.outputPath
        (Rendering.artifactsOfTree mode s.disableEslintQuotes t) w.store w'.store := by
  obtain ⟨p, g, hp, hg, hfile, hemitted, -⟩ := exists_of_emitting_run host s .keep
    (formatsBy_keep host s hformat) hhere hemit w w' r hrun hok
  obtain ⟨hinput, houtput⟩ := (exists_prepared_iff host s w.store).1 ⟨p, hp⟩
  obtain ⟨-, t, -, hloaded, -⟩ := exists_tree_of_generated host s w.store g hg
  rw [generated_eq_artifactsOfTree host s mode hmode w.store g.inputFile t hloaded] at hg
  rw [← congrArg Generated.artifacts (Except.ok.inj hg)] at hemitted
  rw [hfile]
  exact ⟨t, hloaded, hinput, houtput, hemitted⟩

theorem hasScalarKeys_of_emitted (lint : Bool) (t : KeyTree Json) (f : Formatting)
    (mask : Mode) (here directory : Text) (store store' : Store)
    (h : Artifact.Emitted mask f here directory (Rendering.artifactsOfTree mode lint t) store
      store') : t.HasScalarKeys := by
  obtain ⟨-, data, hdata, -⟩ := h.exists_get?
    (Rendering.artifactNamed mode lint t Artifact.keysName)
    (List.mem_map_of_mem (mode.keysName_mem_artifactNames))
  have hscalar := (Artifact.exists_encode_eq_ok_iff _).1 ⟨data, hdata⟩
  rw [Rendering.artifactNamed_keysName] at hscalar
  exact (Rendering.isScalar_keysFile_iff mode lint t).1 hscalar

/-- Whether the artifacts of a tree stand in the output directory of the settings, while the
document that defines the keys is the file at `path`. -/
structure Committed (t : KeyTree Json) (path : Text) (store : Store) : Prop where
  isTree : store.IsTree
  canStage : Verification.CanStage store
  isDirectory_input : store.isDirectory host.here s.inputPath = true
  isDirectory_output : store.isDirectory host.here s.outputPath = true
  hasDistinctKeys : t.HasDistinctKeys
  hasScalarKeys : t.HasScalarKeys
  selected_eq : Document.selected host s.inputPath store = .ok path
  exists_document : ∃ parent document bytes m, Document.suffix.isSuffixOf document = true ∧
    store.locate host.here path = .ok (parent ++ [document]) ∧
      store.get? (parent ++ [document]) = some (.file bytes m)
  content?_eq : ∀ name ∈ mode.artifactNames,
    store.content? host.here (Path.join s.outputPath name) =
      (Rendering.artifactNamed mode s.disableEslintQuotes t name).encode.toOption

/-- After its artifacts are written a tree is committed. -/
theorem committed_of_written (hhere : Path.isAbsolute host.here = true) (t : KeyTree Json)
    (path : Text) (store store' : Store) (hs : store.IsTree)
    (hstage : Verification.CanStage store')
    (hloaded : Document.loaded host s.inputPath s.excludeKey store = .ok (path, t))
    (hinput : store.isDirectory host.here s.inputPath = true)
    (houtput : store.isDirectory host.here s.outputPath = true)
    (hwritten : Artifact.Emitted host.umask .keep host.here s.outputPath
      (Rendering.artifactsOfTree mode s.disableEslintQuotes t) store store') :
    Committed host s mode t path store' := by
  have hdir := outputPath_ne_nil_of_isDirectory _ _ _ houtput
  have hnames := fun a ha =>
    (Rendering.isStageable_artifactsOfTree mode s.disableEslintQuotes t a ha).isEntryName
  have hsuffix : ∀ name ∈ (Rendering.artifactsOfTree mode s.disableEslintQuotes t).map
      Artifact.name, Document.suffix.isSuffixOf name = false := by
    rw [Rendering.map_name_artifactsOfTree]
    exact mode.isSuffixOf_eq_false_of_mem_artifactNames
  have hagree := hwritten.agreesBut hdir hnames
  have hsame := Document.sameDocuments_of_agreesBut store store' _ hsuffix hagree
  obtain ⟨hselected, bytes, -, hcontent, -⟩ := (Document.loaded_eq_ok_iff _ _ _ _ _ _).1 hloaded
  obtain ⟨l, m, hl, hget⟩ := (Store.content_eq_ok_iff _ _ _ _).1
    ((host.content_eq_ok_iff _ _ _).1 hcontent).1
  constructor
  · exact hwritten.isTree hdir hnames hs
  · exact hstage
  · rw [hagree.isDirectory_eq, hinput]
  · rw [hagree.isDirectory_eq, houtput]
  · exact Document.hasDistinctKeys_of_loaded _ _ _ _ _ _ hloaded
  · exact hasScalarKeys_of_emitted mode _ t _ _ _ _ _ _ hwritten
  · exact Document.selected_of_sameDocuments host s.inputPath path store store' hs hsame hselected
  · -- The document is none of the artifacts, so that writing them leaves it where and what it is.
    obtain ⟨parent, document, rfl, hdocument⟩ :=
      Document.exists_of_locate_selected host hhere s.inputPath store store hs path l hselected hl
    refine ⟨parent, document, bytes, m, hdocument, (hagree.locate_iff _ _ _).2 hl, ?_⟩
    rw [hagree.get?_eq parent document fun hmem => ?_, hget]
    rw [hsuffix document hmem] at hdocument
    exact nomatch hdocument
  · intro name hname
    obtain ⟨data, hdata, hcontent⟩ := hwritten.isHeld hdir hnames
      (Rendering.artifactNamed mode s.disableEslintQuotes t name) (List.mem_map_of_mem hname)
    rw [hdata]
    exact hcontent

namespace Committed

variable {t : KeyTree Json} {path : Text} {store : Store}

theorem content?_set_document (h : Committed host s mode t path store) (parent : Location)
    (document : Text) (hdocument : Document.suffix.isSuffixOf document = true) (old bytes : Bytes)
    (m : Mode) (hget : store.get? (parent ++ [document]) = some (.file old m)) (name : Text)
    (hname : name ∈ mode.artifactNames) :
    (store.set (parent ++ [document]) (.file bytes m)).content? host.here
      (Path.join s.outputPath name) =
        (Rendering.artifactNamed mode s.disableEslintQuotes t name).encode.toOption := by
  obtain ⟨data, hdata⟩ :=
    Rendering.exists_encode_artifactNamed mode s.disableEslintQuotes t h.hasScalarKeys name
  have hcontent := h.content?_eq name hname
  rw [hdata] at hcontent ⊢
  obtain ⟨d, hd, -⟩ := (Store.isDirectory_iff _ _ _).1 h.isDirectory_output
  have hdirne := ((Store.locate_eq_ok_iff _ _ _ _).1 hd).2.1
  obtain ⟨k, mk, hlocate, hfile⟩ := (Store.content?_eq_some_iff _ _ _ data).1 hcontent
  obtain ⟨above, rfl, -⟩ := Store.exists_of_locate_join store host.here s.outputPath name k hdirne
    (mode.isStageable_of_mem_artifactNames name hname).isEntryName hlocate
  refine (Store.content?_eq_some_iff _ _ _ data).2 ⟨above ++ [name], mk, ?_, ?_⟩
  · exact ((Store.sameDirectories_set_file _ _ _ _ (by simp)
      (Store.not_isDirectoryAt_of_get?_eq_file _ _ old m hget)).locate_iff _ _ _).2 hlocate
  · rw [Store.get?_set_of_ne, hfile]
    intro heq
    rw [← (List.cons.inj (List.append_inj' heq rfl).2).1,
      mode.isSuffixOf_eq_false_of_mem_artifactNames name hname] at hdocument
    exact nomatch hdocument

theorem overwritten (h : Committed host s mode t path store) (bytes : Bytes) :
    Committed host s mode t path (store.overwritten host.here path bytes) := by
  obtain ⟨parent, document, old, m, hdocument, hl, hget⟩ := h.exists_document
  have hsame := Document.sameDocuments_set_of_get?_eq_file store _ old bytes m m hget
  rw [Store.overwritten_eq_set _ _ bytes old _ _ m hl hget]
  constructor
  · exact Store.isTree_set_of_get?_eq_file _ _ old bytes m m hget h.isTree
  · exact Verification.canStage_set_of_get?_eq_file _ _ old bytes m m hget h.canStage
  · rw [hsame.isDirectory_eq, h.isDirectory_input]
  · rw [hsame.isDirectory_eq, h.isDirectory_output]
  · exact h.hasDistinctKeys
  · exact h.hasScalarKeys
  · exact Document.selected_of_sameDocuments host s.inputPath path _ _ h.isTree hsame h.selected_eq
  · refine ⟨parent, document, bytes, m, hdocument, (hsame.locate_iff _ _ _).2 hl, ?_⟩
    exact Store.get?_set_self _ _ _ (by simp)
  · exact h.content?_set_document host s mode parent document hdocument old bytes m hget

theorem isFile (h : Committed host s mode t path store) : store.isFile host.here path = true := by
  obtain ⟨parent, document, bytes, m, -, hl, hget⟩ := h.exists_document
  exact (Store.isFile_iff _ _ _).2 ⟨_, bytes, m, hl, hget⟩

/-- A run that compares tells the committed artifacts of a tree apart from those of the tree it
loads. -/
theorem exists_runOn_comparing (w : Workspace) (h : Committed host s mode t path w.store)
    (hmode : s.outputMode = mode.name) (hformat : s.format = false) (hemit : s.noEmit = true)
    (hhere : Path.isAbsolute host.here = true) (hpermissive : host.Permissive) (path' : Text)
    (u : KeyTree Json) (hus : u.HasScalarKeys)
    (hloaded : Document.loaded host s.inputPath s.excludeKey w.store = .ok (path', u)) :
    ∃ r w' v, (run host s).runOn w = (.ok r, w') ∧ r.ok = v.ok ∧ r.verification = some v ∧
      (v.ok = false → r.errorKind = ProblemKind.driftMismatch.name) ∧
      Verification.TellsApart mode t u v := by
  obtain ⟨p, hp⟩ :=
    (exists_prepared_iff host s w.store).2 ⟨h.isDirectory_input, h.isDirectory_output⟩
  have hg := generated_eq_artifactsOfTree host s mode hmode w.store path' u hloaded
  have hud := Document.hasDistinctKeys_of_loaded _ _ _ _ _ _ hloaded
  have hencode : ∀ a ∈ Rendering.artifactsOfTree mode s.disableEslintQuotes u,
      ∃ data, a.encode = .ok data := by
    intro a ha
    obtain ⟨name, -, rfl⟩ := List.mem_map.1 ha
    exact Rendering.exists_encode_artifactNamed mode s.disableEslintQuotes u hus name
  obtain ⟨r, w', v, hrun, rfl, hok, hverification, hkind, -⟩ := Run.exists_runOn_comparing host s
    .keep (formatsBy_keep host s hformat) hhere hemit hpermissive w h.isTree h.canStage p _ hp
    hg hencode
  exact ⟨r, w', _, hrun, hok, hverification, hkind,
    Verification.tellsApart_ofStandings s.outputPath mode s.disableEslintQuotes t u
      h.hasDistinctKeys h.hasScalarKeys hud hus
      (fun name => w.store.content? host.here (Path.join s.outputPath name)) h.content?_eq⟩

end Committed

/-- Drift is detected exactly. A run that writes without formatting has loaded a tree `t`. If its
document is overwritten by one that gives a tree `u` with keys that can be written, a run that
compares succeeds exactly if `t` and `u` have the same skeleton. Otherwise it finds no artifact
missing, and of the artifacts it finds the constant to differ, and the type if the paths differ.
The host may refuse nothing, and has to have room for the staging directory. -/
theorem run_detects_drift_exactly (hmode : s.outputMode = mode.name) (hformat : s.format = false)
    (hemit : s.noEmit = false) (hhere : Path.isAbsolute host.here = true)
    (hpermissive : host.Permissive) (w w₁ : Workspace) (hs : w.store.IsTree)
    (hstage : Verification.CanStage w₁.store) (r₁ : RunResult)
    (hrun : (run host s).runOn w = (.ok r₁, w₁)) (hok : r₁.ok = true) :
    ∃ t w', (Document.load host s.inputPath s.excludeKey).runOn w = (.ok (r₁.inputFile, t), w') ∧
      w₁.store.isFile host.here r₁.inputFile = true ∧
      ∀ (bytes : Bytes) (w₂ w₂' : Workspace) (path : Text) (u : KeyTree Json),
        w₂.store = w₁.store.overwritten host.here r₁.inputFile bytes →
        (Document.load host s.inputPath s.excludeKey).runOn w₂ = (.ok (path, u), w₂') →
        u.HasScalarKeys →
        path = r₁.inputFile ∧
          ∃ r₂ w₃, (run host { s with noEmit := true }).runOn w₂ = (.ok r₂, w₃) ∧
            (r₂.ok = true ↔ t.skeleton = u.skeleton) ∧
            (t.skeleton ≠ u.skeleton →
              r₂.errorKind = ProblemKind.driftMismatch.name ∧
                ∃ v, r₂.verification = some v ∧ v.missing = [] ∧
                  v.mismatched = (if mode = .dual ∧ t.paths [] ≠ u.paths [] then
                    [Artifact.typesName] else []) ++ [Artifact.keysName]) := by
  obtain ⟨t, hloaded, hinput, houtput, hwritten⟩ :=
    exists_of_writing_run host s mode hmode hformat hemit hhere w w₁ r₁ hrun hok
  have hcommitted := committed_of_written host s mode hhere t r₁.inputFile w.store w₁.store hs
    hstage hloaded hinput houtput hwritten
  obtain ⟨w', hload, -⟩ := (Document.reads_load host s.inputPath s.excludeKey).exists_runOn_eq _ _ w
  rw [hloaded] at hload
  refine ⟨t, w', hload, hcommitted.isFile host s mode, ?_⟩
  intro bytes w₂ w₂' path u hstore hload₂ hus
  have hcommitted₂ : Committed host s mode t r₁.inputFile w₂.store := by
    rw [hstore]
    exact hcommitted.overwritten host s mode bytes
  have hloaded₂ : Document.loaded host s.inputPath s.excludeKey w₂.store = .ok (path, u) := by
    rw [← (Document.reads_load host s.inputPath s.excludeKey).fst_runOn, hload₂]
  have hpath : path = r₁.inputFile := by
    have hselected := ((Document.loaded_eq_ok_iff _ _ _ _ _ _).1 hloaded₂).1
    exact Except.ok.inj (hselected.symm.trans hcommitted₂.selected_eq)
  have hcomparing : Committed host { s with noEmit := true } mode t r₁.inputFile w₂.store :=
    { hcommitted₂ with }
  obtain ⟨r₂, w₃, v, hrun₂, hok₂, hv, hkind, htells⟩ := hcomparing.exists_runOn_comparing host _
    mode w₂ hmode hformat rfl hhere hpermissive path u hus hloaded₂
  have hiff : r₂.ok = true ↔ t.skeleton = u.skeleton := hok₂ ▸ htells.ok_iff
  refine ⟨hpath, r₂, w₃, hrun₂, hiff, fun hne => ⟨hkind ?_, v, hv, htells.missing_eq,
    htells.mismatched_eq hne⟩⟩
  rw [← hok₂]
  exact Bool.eq_false_iff.2 fun h => hne (hiff.1 h)

def renamedDocument : Bytes := Utf8.encodeChars "\x7b\"x\": 1\x7d".toList

theorem run_detects_drift_exactly_renamed :
    ∃ r₁ w₁ r₂ w₃ v, (run bareHost bareSettings).runOn nestedWorkspace = (.ok r₁, w₁) ∧
      (run bareHost { bareSettings with noEmit := true }).runOn
        { w₁ with
          store := w₁.store.overwritten bareHost.here r₁.inputFile renamedDocument } =
            (.ok r₂, w₃) ∧
      r₂.ok = false ∧ r₂.verification = some v ∧
      v.mismatched = [Artifact.typesName, Artifact.keysName] := by
  obtain ⟨r₁, hrun₁, hok⟩ := Action.exists_runOn_eq_of_map_toOption RunResult.ok
    (run bareHost bareSettings) nestedWorkspace true (by decide +kernel)
  have hstage : Verification.CanStage ((run bareHost bareSettings).runOn nestedWorkspace).2.store :=
    ⟨⟨0o755, by decide +kernel⟩, by decide +kernel⟩
  obtain ⟨t, w', hload, -, hdrift⟩ := run_detects_drift_exactly bareHost bareSettings .dual
    (by decide) rfl rfl rfl ⟨fun _ => rfl, fun _ => rfl⟩ nestedWorkspace _ isTree_nestedWorkspace
    hstage r₁ hrun₁ hok
  obtain ⟨u₀, hloaded₀, hskeleton₀⟩ := exists_loaded_nestedWorkspace
  obtain ⟨hfile, rfl⟩ : r₁.inputFile = "/in/en.json" ∧ t = u₀ := by
    have hloaded := (Document.reads_load bareHost bareSettings.inputPath
      bareSettings.excludeKey).fst_runOn _ _ nestedWorkspace
    rw [hload, hloaded₀] at hloaded
    exact Prod.mk.inj (Except.ok.inj hloaded)
  rw [hfile] at hdrift
  obtain ⟨⟨path, u⟩, hloaded₂, hu⟩ := exists_of_map_toOption_eq_some
    (fun x : Text × KeyTree Json => x.2.skeleton)
    (Document.loaded bareHost bareSettings.inputPath bareSettings.excludeKey
      (((run bareHost bareSettings).runOn nestedWorkspace).2.store.overwritten bareHost.here
        "/in/en.json" renamedDocument)) (.leaf "x" () .nil) (by decide +kernel)
  obtain ⟨w₂', hload₂, -⟩ := (Document.reads_load bareHost bareSettings.inputPath
    bareSettings.excludeKey).exists_runOn_eq _ _
      { ((run bareHost bareSettings).runOn nestedWorkspace).2 with
        store := ((run bareHost bareSettings).runOn nestedWorkspace).2.store.overwritten
          bareHost.here "/in/en.json" renamedDocument }
  rw [hloaded₂] at hload₂
  have hus : u.HasScalarKeys := by
    rw [KeyTree.HasScalarKeys, ← KeyTree.allKeys_skeleton, hu]
    decide
  have hpaths : u.paths [] = ["x"] := by
    rw [← KeyTree.paths_skeleton, hu]
    rfl
  obtain ⟨-, r₂, w₃, hrun₂, hiff, hne⟩ := hdrift renamedDocument _ w₂' path u rfl hload₂ hus
  have hskeleton : t.skeleton ≠ u.skeleton := by
    rw [hskeleton₀, hu]
    decide
  obtain ⟨-, v, hv, -, hmismatched⟩ := hne hskeleton
  refine ⟨r₁, _, r₂, w₃, v, hrun₁, ?_, Bool.eq_false_iff.2 fun h => hskeleton (hiff.1 h),
    hv, ?_⟩
  · rw [hfile]
    exact hrun₂
  · rw [hmismatched, ← KeyTree.paths_skeleton t, hskeleton₀, hpaths]
    decide

end Run

end LocaleKeys
