import LocaleKeys.Proofs.Artifact.Encoding
import LocaleKeys.Proofs.Artifact.Verification

/-!
# The artifacts of two trees compared

The artifacts of a tree are known by their names (`artifactNamed`). That of the constant is the same
for two trees exactly if they have the same skeleton, that of the type exactly if they have the same
paths, so that comparing the artifacts of one tree with those of another tells which of the two is
different (`TellsApart`).
-/

namespace LocaleKeys

namespace OutputMode

variable (mode : OutputMode)

theorem nodup_artifactNames : mode.artifactNames.Nodup := by
  cases mode <;> decide

theorem keysName_mem_artifactNames : Artifact.keysName ∈ mode.artifactNames := by
  cases mode <;> simp [artifactNames]

theorem eq_of_mem_artifactNames (name : Text) (h : name ∈ mode.artifactNames) :
    name = Artifact.typesName ∨ name = Artifact.keysName := by
  cases mode with
  | single => exact .inr (List.mem_singleton.1 h)
  | dual => simpa [artifactNames] using h

theorem isStageable_of_mem_artifactNames (name : Text) (h : name ∈ mode.artifactNames) :
    Verification.IsStageable name := by
  rcases mode.eq_of_mem_artifactNames name h with rfl | rfl
  · exact ⟨⟨by decide, by decide⟩, by decide, by decide⟩
  · exact ⟨⟨by decide, by decide⟩, by decide, by decide⟩

theorem isSuffixOf_eq_false_of_mem_artifactNames (name : Text) (h : name ∈ mode.artifactNames) :
    Document.suffix.isSuffixOf name = false := by
  rcases mode.eq_of_mem_artifactNames name h with rfl | rfl <;> decide

end OutputMode

namespace Rendering

variable {α β : Type}

def artifactNamed (mode : OutputMode) (lint : Bool) (t : KeyTree α) (name : Text) : Artifact where
  name
  content :=
    if name = Artifact.typesName then typesFile lint (t.paths [])
    else keysFile mode lint (t.paths []) (constantMembers t)

theorem artifactNamed_typesName (mode : OutputMode) (lint : Bool) (t : KeyTree α) :
    (artifactNamed mode lint t Artifact.typesName).content = typesFile lint (t.paths []) := by
  rw [artifactNamed, if_pos rfl]

theorem artifactNamed_keysName (mode : OutputMode) (lint : Bool) (t : KeyTree α) :
    (artifactNamed mode lint t Artifact.keysName).content =
      keysFile mode lint (t.paths []) (constantMembers t) := by
  rw [artifactNamed, if_neg (by decide)]

theorem exists_encode_artifactNamed (mode : OutputMode) (lint : Bool) (t : KeyTree α)
    (ht : t.HasScalarKeys) (name : Text) :
    ∃ data, (artifactNamed mode lint t name).encode = .ok data := by
  rw [Artifact.exists_encode_eq_ok_iff, artifactNamed]
  split
  · exact isScalar_typesFile lint _ (KeyTree.isScalar_paths t ht)
  · exact (isScalar_keysFile_iff mode lint t).2 ht

/-- The artifacts of two trees with the same skeleton are the same. -/
theorem artifactNamed_eq_of_skeleton_eq (mode : OutputMode) (lint : Bool) (t : KeyTree α)
    (u : KeyTree β) (name : Text) (h : t.skeleton = u.skeleton) :
    artifactNamed mode lint t name = artifactNamed mode lint u name := by
  rw [artifactNamed, artifactNamed, constantMembers, constantMembers,
    (KeyTree.withPaths_eq_iff t u []).2 h, KeyTree.paths_eq_of_skeleton_eq t u [] h]

/-- The artifacts of a tree, one for each name of the mode. -/
def artifactsOfTree (mode : OutputMode) (lint : Bool) (t : KeyTree α) : List Artifact :=
  mode.artifactNames.map (artifactNamed mode lint t)

theorem artifactsOf_eq_artifactsOfTree (mode : OutputMode) (lint : Bool) (t : KeyTree α) :
    artifactsOf mode lint (t.paths []) (constantMembers t) = artifactsOfTree mode lint t := by
  cases mode <;> rfl

theorem map_name_artifactsOfTree (mode : OutputMode) (lint : Bool) (t : KeyTree α) :
    (artifactsOfTree mode lint t).map Artifact.name = mode.artifactNames := by
  rw [artifactsOfTree, List.map_map]
  exact List.map_id _

theorem nodup_map_name_artifactsOfTree (mode : OutputMode) (lint : Bool) (t : KeyTree α) :
    ((artifactsOfTree mode lint t).map Artifact.name).Nodup := by
  rw [map_name_artifactsOfTree]
  exact mode.nodup_artifactNames

theorem name_mem_of_mem_artifactsOfTree (mode : OutputMode) (lint : Bool) (t : KeyTree α)
    (a : Artifact) (ha : a ∈ artifactsOfTree mode lint t) : a.name ∈ mode.artifactNames := by
  rw [← map_name_artifactsOfTree mode lint t]
  exact List.mem_map_of_mem ha

theorem isStageable_artifactsOfTree (mode : OutputMode) (lint : Bool) (t : KeyTree α) :
    ∀ a ∈ artifactsOfTree mode lint t, Verification.IsStageable a.name := by
  intro a ha
  exact mode.isStageable_of_mem_artifactNames _ (name_mem_of_mem_artifactsOfTree mode lint t a ha)

variable (mode : OutputMode) (lint : Bool) (t : KeyTree α) (u : KeyTree β)

theorem artifactNamed_keysName_eq_iff (htd : t.HasDistinctKeys) (hts : t.HasScalarKeys)
    (hud : u.HasDistinctKeys) (hus : u.HasScalarKeys) :
    (artifactNamed mode lint t Artifact.keysName).content =
      (artifactNamed mode lint u Artifact.keysName).content ↔ t.skeleton = u.skeleton := by
  rw [artifactNamed_keysName, artifactNamed_keysName]
  exact keysFile_eq_iff mode lint t u htd hts hud hus

theorem artifactNamed_typesName_eq_iff (hts : t.HasScalarKeys) (hus : u.HasScalarKeys) :
    (artifactNamed mode lint t Artifact.typesName).content =
      (artifactNamed mode lint u Artifact.typesName).content ↔ t.paths [] = u.paths [] := by
  rw [artifactNamed_typesName, artifactNamed_typesName]
  exact typesFile_eq_iff lint _ _ (KeyTree.isScalar_paths t hts) (KeyTree.isScalar_paths u hus)

/-- Which artifacts are not the same for two trees with different skeletons. -/
theorem filter_artifactNames (htd : t.HasDistinctKeys) (hts : t.HasScalarKeys)
    (hud : u.HasDistinctKeys) (hus : u.HasScalarKeys) (hne : t.skeleton ≠ u.skeleton) :
    (mode.artifactNames.filter fun name =>
      (artifactNamed mode lint t name).content ≠ (artifactNamed mode lint u name).content) =
      (if mode = .dual ∧ t.paths [] ≠ u.paths [] then [Artifact.typesName] else []) ++
        [Artifact.keysName] := by
  have hkeys := artifactNamed_keysName_eq_iff mode lint t u htd hts hud hus
  have htypes := artifactNamed_typesName_eq_iff mode lint t u hts hus
  cases mode with
  | single => simp [OutputMode.artifactNames, hkeys, hne]
  | dual =>
      by_cases hpaths : t.paths [] = u.paths []
      · simp [OutputMode.artifactNames, hkeys, htypes, hne, hpaths]
      · simp [OutputMode.artifactNames, hkeys, htypes, hne, hpaths]

end Rendering

namespace Verification

theorem standing_encode (a b : Artifact) (ha : ∃ data, a.encode = .ok data)
    (hb : ∃ data, b.encode = .ok data) :
    standing a.encode.toOption b.encode.toOption =
      if a.content = b.content then .same else .different := by
  obtain ⟨x, hx⟩ := ha
  obtain ⟨y, hy⟩ := hb
  simp [hx, hy, ← Artifact.encode_eq_iff a b x y hx hy, Except.toOption, standing]

theorem map_filter_map (names : List Text) (f : Text → Standing) (st : Standing) :
    ((names.map fun n => (n, f n)).filter (·.2 = st)).map (·.1) =
      names.filter fun n => f n = st := by
  rw [List.filter_map, List.map_map]
  exact List.map_id _

theorem ofStandings_map (directory : Text) (names : List Text) (p : Text → Prop)
    [DecidablePred p] :
    ofStandings directory (names.map fun n => (n, if p n then .same else .different)) =
      { ok := (names.filter fun n => ¬ p n).isEmpty
        checked := names
        mismatched := names.filter fun n => ¬ p n
        missing := []
        message := describe directory (names.filter fun n => ¬ p n) [] } := by
  have hdifferent : (names.filter fun n => (if p n then Standing.same else .different) =
      .different) = names.filter fun n => ¬ p n := by
    refine List.filter_congr fun n _ => ?_
    by_cases hn : p n <;> simp [hn]
  have habsent : (names.filter fun n => (if p n then Standing.same else .different) =
      .absent) = [] := by
    refine List.filter_eq_nil_iff.2 fun n _ => ?_
    by_cases hn : p n <;> simp [hn]
  have hnames : (names.map fun n => (n, if p n then Standing.same else .different)).map (·.1) =
      names := by
    rw [List.map_map]
    exact List.map_id names
  rw [ofStandings]
  simp only [map_filter_map, hdifferent, habsent, hnames, List.isEmpty_nil, Bool.and_true]

/-- Whether an outcome tells the artifacts of two trees apart: it is good exactly if the trees have
the same skeleton, and otherwise it names the constant, and the type if the paths differ. -/
structure TellsApart {α β : Type} (mode : OutputMode) (t : KeyTree α) (u : KeyTree β)
    (v : Verification) : Prop where
  ok_iff : v.ok = true ↔ t.skeleton = u.skeleton
  missing_eq : v.missing = []
  mismatched_eq : t.skeleton ≠ u.skeleton → v.mismatched =
    (if mode = .dual ∧ t.paths [] ≠ u.paths [] then [Artifact.typesName] else []) ++
      [Artifact.keysName]

/-- The committed files are the artifacts of one tree and the fresh ones those of another. -/
theorem tellsApart_ofStandings {α β : Type} (directory : Text) (mode : OutputMode) (lint : Bool)
    (t : KeyTree α) (u : KeyTree β) (htd : t.HasDistinctKeys) (hts : t.HasScalarKeys)
    (hud : u.HasDistinctKeys) (hus : u.HasScalarKeys) (committed : Text → Option Bytes)
    (hcommitted : ∀ name ∈ mode.artifactNames,
      committed name = (Rendering.artifactNamed mode lint t name).encode.toOption) :
    TellsApart mode t u (ofStandings directory
      (standings .keep committed (Rendering.artifactsOfTree mode lint u))) := by
  have hstandings : standings .keep committed (Rendering.artifactsOfTree mode lint u) =
      mode.artifactNames.map fun name => (name,
        if (Rendering.artifactNamed mode lint t name).content =
          (Rendering.artifactNamed mode lint u name).content then .same else .different) := by
    rw [standings_keep, Rendering.artifactsOfTree, List.map_map]
    refine List.map_congr_left fun name hname => ?_
    have hstanding := standing_encode (Rendering.artifactNamed mode lint t name)
      (Rendering.artifactNamed mode lint u name)
      (Rendering.exists_encode_artifactNamed mode lint t hts name)
      (Rendering.exists_encode_artifactNamed mode lint u hus name)
    rw [← hcommitted name hname] at hstanding
    exact congrArg (Prod.mk name) hstanding
  rw [hstandings, ofStandings_map]
  constructor
  · by_cases hskeleton : t.skeleton = u.skeleton
    · have hsame := fun name => congrArg Artifact.content
        (Rendering.artifactNamed_eq_of_skeleton_eq mode lint t u name hskeleton)
      simp [hskeleton, hsame]
    · have hfilter := Rendering.filter_artifactNames mode lint t u htd hts hud hus hskeleton
      simp only [hfilter]
      simp [hskeleton]
  · rfl
  · intro hskeleton
    exact Rendering.filter_artifactNames mode lint t u htd hts hud hus hskeleton

end Verification

end LocaleKeys
