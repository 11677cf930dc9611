import LocaleKeys.Proofs.Artifact.Blocks
import LocaleKeys.Proofs.Document.Loading
import LocaleKeys.Proofs.Run.Host
import LocaleKeys.Run.Generation

/-!
# What a run renders reads back

Rendering the artifacts only looks at the files (`generated`). The two blocks of the artifacts can
be decoded again without the program that rendered them: the constant is a document, which gives the
tree of paths, and the lines of the union are string literals, which give the paths (`ReadsBack`).
Rendering from the decoded constant gives the same artifacts.
-/

namespace LocaleKeys

namespace OutputMode

theorem ofName?_name (mode : OutputMode) : ofName? mode.name = some mode := by
  cases mode <;> decide

end OutputMode

namespace Rendering

theorem ofTree_name {α : Type} (mode : OutputMode) (lint : Bool) (t : KeyTree α) :
    ofTree mode.name lint t = .ok (artifactsOf mode lint (t.paths []) (constantMembers t)) := by
  rw [ofTree, artifacts, OutputMode.ofName?_name]
  rfl

theorem artifactsOf_eq_of_skeleton_eq {α β : Type} (mode : OutputMode) (lint : Bool)
    (t : KeyTree α) (u : KeyTree β) (h : t.skeleton = u.skeleton) :
    artifactsOf mode lint (t.paths []) (constantMembers t) =
      artifactsOf mode lint (u.paths []) (constantMembers u) := by
  rw [constantMembers, constantMembers, (KeyTree.withPaths_eq_iff t u []).2 h,
    KeyTree.paths_eq_of_skeleton_eq t u [] h]

end Rendering

namespace Run

def generated (host : Host) (s : Settings) (store : Store) : Except Failure Generated := do
  let (inputFile, tree) ← Document.loaded host s.inputPath s.excludeKey store
  let artifacts ←
    (Rendering.ofTree s.outputMode s.disableEslintQuotes tree).mapError Failure.problem
  return ⟨inputFile, (tree.paths []).length, artifacts⟩

theorem reads_generate (host : Host) (s : Settings) :
    (generate host s).Reads (generated host s) := by
  refine Action.Reads.bind _ _ _ _ (Document.reads_load host s.inputPath s.excludeKey) ?_
  rintro ⟨inputFile, tree⟩
  have hrest := Action.Reads.bind _ _ _ _
    (Action.reads_ofProblem (Rendering.ofTree s.outputMode s.disableEslintQuotes tree))
    fun artifacts => Action.reads_pure (Generated.mk inputFile (tree.paths []).length artifacts)
  simp only
  split
  · exact Action.Reads.of_record _ _ _ (Action.reads_record _ _ _) hrest
  · exact Action.Reads.of_record _ _ _ (Action.reads_record _ _ _) hrest

theorem generated_of_loaded (host : Host) (s : Settings) (mode : OutputMode)
    (hmode : s.outputMode = mode.name) (store : Store) (path : Text) (t : KeyTree Json)
    (h : Document.loaded host s.inputPath s.excludeKey store = .ok (path, t)) :
    generated host s store =
      .ok ⟨path, (t.paths []).length, Rendering.artifactsOf mode s.disableEslintQuotes (t.paths [])
        (Rendering.constantMembers t)⟩ := by
  rw [generated, h, hmode]
  simp only [bind, Except.bind, Rendering.ofTree_name, Except.mapError]
  rfl

end Run

namespace Rendering

/-- How the blocks that are rendered from a tree are read back: `document` is the text of the
constant between its first words and the final semicolon, `bytes` are that text as a document, and
`literals` are the string literals of the union. -/
structure ReadsBack (t : KeyTree Json) (document : Text) (bytes : Bytes) (literals : List Text) :
    Prop where
  /-- The constant is the document between fixed words. -/
  constant_eq : constant (constantMembers t) = "export const TRANSLATION_KEYS = " ++ document ++ ";"
  encode_eq : Utf8.encode document = .ok bytes
  /-- Wherever the document is stored, it is read as the tree of paths. -/
  read_eq : ∀ (host : Host) (path : Text) (store : Store), host.content path store = .ok bytes →
    Document.read host path store = .ok ((t.withPaths []).map .str)
  /-- The lines of the union, if there is a leaf. -/
  split_eq : t.leaves ≠ [] →
    Text.split '\n' (union (t.paths [])) = unionHead :: memberLines literals
  length_lines : (memberLines literals).length = (t.paths []).length
  union_eq_never : union (t.paths []) = neverUnion ↔ t.leaves = []
  /-- The literals are read as the paths, one by one. -/
  literals_paths : List.Forall₂ (fun l p => Json.read (Text.toChars l) = .ok (.str p)) literals
    (t.paths [])
  /-- The literals are read as the leaves of the constant, one by one. -/
  literals_leaves : List.Forall₂ (fun l v => Json.read (Text.toChars l) = .ok v) literals
    ((t.withPaths []).map Json.str).leaves

theorem forall₂_map_quote (ps : List Text) (hps : ∀ p ∈ ps, p.isScalar = true) :
    List.Forall₂ (fun l p => Json.read (Text.toChars l) = .ok (.str p)) (ps.map Json.quote) ps := by
  induction ps with
  | nil => exact .nil
  | cons p ps ih =>
      obtain ⟨hp, hps⟩ := List.forall_mem_cons.1 hps
      exact .cons (Json.read_quote p hp) (ih hps)

theorem paths_eq_nil_iff {α : Type} (t : KeyTree α) (above : List Text) :
    t.paths above = [] ↔ t.leaves = [] := by
  induction t generalizing above with
  | nil => exact ⟨fun _ => rfl, fun _ => rfl⟩
  | leaf key v rest ih => exact ⟨fun h => (nomatch h), fun h => (nomatch h)⟩
  | node key below rest ihb ihr =>
      rw [KeyTree.paths, KeyTree.leaves, List.append_eq_nil_iff, List.append_eq_nil_iff, ihb, ihr]

/-- The blocks of every tree with distinct keys that can be written read back. -/
theorem exists_readsBack (t : KeyTree Json) (hd : t.HasDistinctKeys) (hs : t.HasScalarKeys) :
    ∃ document bytes literals, ReadsBack t document bytes literals := by
  have hdistinct := hasDistinctKeys_withPaths t hd
  have hkeys := (hasScalarKeys_withPaths t).2 hs
  have hleaves := isScalar_leaves_withPaths t hs
  have hprint := (KeyTree.isScalar_print_toMembers (t.withPaths [])).2 ⟨hkeys, hleaves⟩
  obtain ⟨bytes, hbytes⟩ :
      ∃ bytes, Utf8.encode (Json.print (.obj (constantMembers t))) = .ok bytes :=
    ⟨_, (Utf8.encode_eq_ok_iff _ _).2 ⟨hprint, rfl⟩⟩
  have hliterals := forall₂_map_quote (t.paths []) (KeyTree.isScalar_paths t hs)
  refine ⟨Json.print (.obj (constantMembers t)), bytes, (t.paths []).map Json.quote, ?_⟩
  constructor
  · rfl
  · exact hbytes
  · intro host path store hcontent
    refine (Document.read_eq_ok_iff _ _ _ _).2 ⟨bytes, hcontent, ?_⟩
    exact Document.parse_print_toMembers _ hdistinct hkeys hleaves path bytes hbytes
  · intro hne
    exact split_union (t.paths []) fun h => hne ((paths_eq_nil_iff t []).1 h)
  · rw [length_memberLines, List.length_map]
  · rw [union_eq_neverUnion_iff, paths_eq_nil_iff]
  · exact hliterals
  · rw [KeyTree.leaves_map, KeyTree.leaves_withPaths]
    exact List.forall₂_map_right_iff.2 hliterals

end Rendering

namespace Run

theorem generated_of_reads_withPaths (host : Host) (s : Settings) (mode : OutputMode)
    (hmode : s.outputMode = mode.name) (hkey : s.excludeKey = none ∨ s.excludeKey = some [])
    (store : Store) (path : Text) (t : KeyTree Json) (hnames : Document.checkNames t = .ok ())
    (hselected : Document.selected host s.inputPath store = .ok path)
    (hread : Document.read host path store = .ok ((t.withPaths []).map .str)) :
    generated host s store =
      .ok ⟨path, (t.paths []).length, Rendering.artifactsOf mode s.disableEslintQuotes (t.paths [])
        (Rendering.constantMembers t)⟩ := by
  have hskeleton : ((t.withPaths []).map Json.str).skeleton = t.skeleton := by
    rw [KeyTree.skeleton_map, KeyTree.skeleton_withPaths]
  have hunwrapped : Document.unwrapped s.excludeKey ((t.withPaths []).map Json.str) =
      .ok ((t.withPaths []).map Json.str) := by
    rcases hkey with h | h <;> rw [h] <;> rfl
  have hnames' : Document.checkNames ((t.withPaths []).map Json.str) = .ok () := by
    rw [Document.checkNames_eq_ok_iff] at hnames ⊢
    rwa [KeyTree.allKeys_eq_of_skeleton_eq _ t hskeleton]
  obtain ⟨bytes, hbytes, hparse⟩ := (Document.read_eq_ok_iff _ _ _ _).1 hread
  have hloaded := (Document.loaded_eq_ok_iff host s.inputPath s.excludeKey store path _).2
    ⟨hselected, bytes, _, hbytes, hparse, hunwrapped, hnames'⟩
  rw [generated_of_loaded host s mode hmode store path _ hloaded,
    Rendering.artifactsOf_eq_of_skeleton_eq mode s.disableEslintQuotes _ t hskeleton,
    KeyTree.paths_eq_of_skeleton_eq _ t [] hskeleton]

/-- What is rendered from a loaded tree reads back: the blocks of the artifacts give the tree of
paths and the paths, as many as the run reports, and rendering without an excluded key from the
document in the constant gives the same artifacts. -/
theorem rendered_artifacts_read_back (host : Host) (s : Settings) (mode : OutputMode)
    (hmode : s.outputMode = mode.name) (w w' : Workspace) (path : Text) (t : KeyTree Json)
    (hload : (Document.load host s.inputPath s.excludeKey).runOn w = (.ok (path, t), w'))
    (hkeys : t.HasScalarKeys) :
    ∃ g w₁ document bytes literals,
      (generate host s).runOn w = (.ok g, w₁) ∧
      g.artifacts = Rendering.artifactsOf mode s.disableEslintQuotes (t.paths [])
        (Rendering.constantMembers t) ∧
      Rendering.ReadsBack t document bytes literals ∧
      g.keyCount = ((t.withPaths []).map Json.str).leaves.length ∧
      ∀ (host₂ : Host) (s₂ : Settings) (w₂ w₂' : Workspace) (path₂ : Text),
        s₂.outputMode = s.outputMode → s₂.disableEslintQuotes = s.disableEslintQuotes →
        (s₂.excludeKey = none ∨ s₂.excludeKey = some []) →
        (Document.discover host₂ s₂.inputPath).runOn w₂ = (.ok path₂, w₂') →
        host₂.content path₂ w₂.store = .ok bytes →
        ∃ w₃, (generate host₂ s₂).runOn w₂ = (.ok { g with inputFile := path₂ }, w₃) := by
  have hloaded : Document.loaded host s.inputPath s.excludeKey w.store = .ok (path, t) := by
    rw [← (Document.reads_load host s.inputPath s.excludeKey).fst_runOn, hload]
  obtain ⟨-, _, _, -, -, -, hnames⟩ := (Document.loaded_eq_ok_iff _ _ _ _ _ _).1 hloaded
  have hd := Document.hasDistinctKeys_of_loaded _ _ _ _ _ _ hloaded
  obtain ⟨document, bytes, literals, hback⟩ := Rendering.exists_readsBack t hd hkeys
  obtain ⟨w₁, hgenerate, -⟩ := (reads_generate host s).exists_runOn_eq _ _ w
  rw [generated_of_loaded host s mode hmode w.store path t hloaded] at hgenerate
  refine ⟨_, w₁, document, bytes, literals, hgenerate, rfl, hback, ?_, ?_⟩
  · rw [KeyTree.leaves_map, List.length_map, KeyTree.leaves_withPaths]
  · intro host₂ s₂ w₂ w₂' path₂ hmode₂ hlint hkey₂ hdiscover hcontent
    have hselected : Document.selected host₂ s₂.inputPath w₂.store = .ok path₂ := by
      rw [← (Document.reads_discover host₂ s₂.inputPath).fst_runOn, hdiscover]
    obtain ⟨w₃, hgenerate₂, -⟩ := (reads_generate host₂ s₂).exists_runOn_eq _ _ w₂
    rw [generated_of_reads_withPaths host₂ s₂ mode (hmode₂.trans hmode) hkey₂ w₂.store path₂ t
      hnames hselected (hback.read_eq host₂ path₂ w₂.store hcontent), hlint] at hgenerate₂
    exact ⟨w₃, hgenerate₂⟩

def bareSettings : Settings := { inputPath := "/in", outputPath := "/out" }

/-- A workspace with one document, in which a key holds a quotation mark and a node is empty. -/
def nestedWorkspace : Workspace where
  store := ⟨[(["tmp"], .directory 0o755), (["in"], .directory 0o755),
    (["out"], .directory 0o755),
    (["in", "en.json"], .file (Utf8.encodeChars
      "\x7b\"a\\\"b\": \x7b\"c\": [], \"d\": \x7b\x7d\x7d\x7d".toList) 0o644)]⟩

def nestedSkeleton : KeyTree Unit := .node "a\"b" (.leaf "c" () (.node "d" .nil .nil)) .nil

theorem exists_loaded_nestedWorkspace :
    ∃ t, Document.loaded bareHost bareSettings.inputPath bareSettings.excludeKey
        nestedWorkspace.store = .ok ("/in/en.json", t) ∧ t.skeleton = nestedSkeleton := by
  obtain ⟨⟨path, t⟩, hloaded, h⟩ := exists_of_map_toOption_eq_some
    (fun x : Text × KeyTree Json => (x.1, x.2.skeleton))
    (Document.loaded bareHost bareSettings.inputPath bareSettings.excludeKey nestedWorkspace.store)
    ("/in/en.json", nestedSkeleton) (by decide +kernel)
  obtain ⟨rfl, hskeleton⟩ := Prod.mk.inj h
  exact ⟨t, hloaded, hskeleton⟩

theorem rendered_artifacts_read_back_nested :
    ∃ t g w₁ document bytes literals, t.skeleton = nestedSkeleton ∧
      (generate bareHost bareSettings).runOn nestedWorkspace = (.ok g, w₁) ∧
      Rendering.ReadsBack t document bytes literals ∧
      g.keyCount = ((t.withPaths []).map Json.str).leaves.length := by
  obtain ⟨t, hloaded, hskeleton⟩ := exists_loaded_nestedWorkspace
  obtain ⟨w', hload, -⟩ := (Document.reads_load bareHost bareSettings.inputPath
    bareSettings.excludeKey).exists_runOn_eq _ _ nestedWorkspace
  rw [hloaded] at hload
  have hkeys : t.HasScalarKeys := by
    rw [KeyTree.HasScalarKeys, ← KeyTree.allKeys_skeleton, hskeleton]
    decide
  obtain ⟨g, w₁, document, bytes, literals, hg, -, hback, hcount, -⟩ :=
    rendered_artifacts_read_back bareHost bareSettings .dual (by decide) nestedWorkspace w'
      "/in/en.json" t hload hkeys
  exact ⟨t, g, w₁, document, bytes, literals, hskeleton, hg, hback, hcount⟩

end Run

end LocaleKeys
