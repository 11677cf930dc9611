import LocaleKeys.Proofs.Run.Defects
import Mathlib

/-!
# Generating from a part of a document

An excluded key names a member of the document whose object takes the place of the whole document.
What is generated then is what would be generated from a document that consists of that object alone
(`generated_below_excluded_key`): the members beside it count for nothing, also where their keys are
misnamed, and the same key further down is an ordinary key.
-/

namespace LocaleKeys

namespace Document

/-- Whether the document that defines the keys of a directory is an object with the given members.
-/
def IsObject (host : Host) (dir : Text) (s : Store) (members : List (Text × Json)) : Prop :=
  ∃ path cs, selected host dir s = .ok path ∧ HoldsText host s path cs ∧
    Json.read (Text.universalLines cs) = .ok (.obj members)

section Unwrapped

variable (key : Option Text) (members : List (Text × Json))

theorem unwrapped_of_no_key (h : key = none ∨ key = some []) (t : KeyTree Json) :
    unwrapped key t = .ok t := by
  rcases h with rfl | rfl <;> rfl

theorem unwrapped_ofMembers (k : Text) (hk : k ≠ []) :
    unwrapped (some k) (KeyTree.ofMembers members) =
      match Json.find? k members with
      | none => .ok (KeyTree.ofMembers members)
      | some (.obj below) => .ok (KeyTree.ofMembers below)
      | some v => .error (.unwrappedType k v.typeName) := by
  rw [unwrapped, KeyTree.find_ofMembers]
  · rcases Json.find? k members with _ | v
    · rfl
    · cases v <;> rfl
  · exact hk

end Unwrapped

end Document

def Generated.contents (g : Generated) : Nat × List Artifact := (g.keyCount, g.artifacts)

namespace Rendering

def contentsOf (mode : Text) (lint : Bool) (t : KeyTree Json) :
    Except Problem (Nat × List Artifact) := do
  Document.checkNames t
  let artifacts ← ofTree mode lint t
  return ((t.paths []).length, artifacts)

theorem kind_of_contentsOf_eq_error (mode : Text) (lint : Bool) (t : KeyTree Json) (p : Problem)
    (h : contentsOf mode lint t = .error p) :
    p.kind = .invalidKeyName ∨ p.kind = .invalidOutputMode := by
  rcases bind_eq_error_cases _ _ _ h with hnames | ⟨u, -, h⟩
  · exact .inl (Document.kind_of_checkNames_eq_error t p hnames)
  rcases bind_eq_error_cases _ _ _ h with hmode | ⟨artifacts, -, h⟩
  · exact .inr (Run.kind_of_ofTree_eq_error
      { inputPath := [], outputPath := [], outputMode := mode } lint t p hmode).1
  · exact nomatch h

end Rendering

namespace Run

/-- The outcome of generating: the number of keys and the artifacts, or the failure. -/
def generating (host : Host) (s : Settings) (w : Workspace) :
    Except Failure (Nat × List Artifact) :=
  ((generate host s).runOn w).1.map Generated.contents

/-- The outcome of generating depends on the tree that takes the place of the document. -/
theorem generating_of_isObject (host : Host) (s : Settings) (w : Workspace)
    (members : List (Text × Json)) (h : Document.IsObject host s.inputPath w.store members) :
    generating host s w =
      (Document.unwrapped s.excludeKey (KeyTree.ofMembers members) >>= fun t =>
        Rendering.contentsOf s.outputMode s.disableEslintQuotes t).mapError .problem := by
  obtain ⟨path, cs, hselected, htext, hjson⟩ := h
  have hread := (Document.read_eq_ok_iff_obj host w.store path _).2
    ⟨cs, members, htext, hjson, rfl⟩
  rw [generating, (reads_generate host s).fst_runOn, generated, Document.loaded, hselected]
  simp only [bind, Except.bind, hread]
  cases Document.unwrapped s.excludeKey (KeyTree.ofMembers members) with
  | error p => rfl
  | ok t =>
      simp only [Except.mapError, Rendering.contentsOf, bind, Except.bind, pure, Except.pure]
      cases Document.checkNames t with
      | error p => rfl
      | ok u =>
          simp only
          cases Rendering.ofTree s.outputMode s.disableEslintQuotes t <;> rfl

section Outcomes

variable (host : Host) (s : Settings) (w : Workspace) (members : List (Text × Json)) (k : Text)
  (hk : k ≠ []) (hkey : s.excludeKey = some k)
  (hdocument : Document.IsObject host s.inputPath w.store members)
include hk hkey hdocument

theorem generating_of_find?_eq_obj (below : List (Text × Json))
    (hbelow : Json.find? k members = some (.obj below)) :
    generating host s w =
      (Rendering.contentsOf s.outputMode s.disableEslintQuotes
        (KeyTree.ofMembers below)).mapError .problem := by
  rw [generating_of_isObject host s w members hdocument, hkey,
    Document.unwrapped_ofMembers members k hk, hbelow]
  rfl

theorem generating_of_find?_eq_none (hnone : Json.find? k members = none) :
    generating host s w =
      (Rendering.contentsOf s.outputMode s.disableEslintQuotes
        (KeyTree.ofMembers members)).mapError .problem := by
  rw [generating_of_isObject host s w members hdocument, hkey,
    Document.unwrapped_ofMembers members k hk, hnone]
  rfl

theorem generating_of_find?_ne_obj (v : Json) (hv : Json.find? k members = some v)
    (hobj : ∀ below, v ≠ .obj below) :
    generating host s w = .error (.problem (.unwrappedType k v.typeName)) := by
  rw [generating_of_isObject host s w members hdocument, hkey,
    Document.unwrapped_ofMembers members k hk, hv]
  cases v with
  | obj below => exact absurd rfl (hobj below)
  | null => rfl
  | bool b => rfl
  | int n => rfl
  | float x => rfl
  | str t => rfl
  | arr items => rfl

end Outcomes

theorem generating_of_no_key (host : Host) (s : Settings) (w : Workspace)
    (members : List (Text × Json)) (hkey : s.excludeKey = none ∨ s.excludeKey = some [])
    (hdocument : Document.IsObject host s.inputPath w.store members) :
    generating host s w =
      (Rendering.contentsOf s.outputMode s.disableEslintQuotes
        (KeyTree.ofMembers members)).mapError .problem := by
  rw [generating_of_isObject host s w members hdocument, Document.unwrapped_of_no_key _ hkey]
  rfl

/-- With an excluded key the outcome is that of a run without one whose document is the object under
the key, so that it fails only for the names of the keys there and for the output mode, and is the
same for all documents with that object under the key. If the key is not there, the outcome is that
of a run without one on the same document. If no object stands under it, the document is malformed.
-/
theorem generated_below_excluded_key (host : Host) (s : Settings) (w : Workspace)
    (members : List (Text × Json)) (k : Text) (hk : k ≠ []) (hkey : s.excludeKey = some k)
    (hdocument : Document.IsObject host s.inputPath w.store members) :
    (∀ below, Json.find? k members = some (.obj below) →
      (∀ (host' : Host) (s' : Settings) (w' : Workspace),
        s'.outputMode = s.outputMode → s'.disableEslintQuotes = s.disableEslintQuotes →
        (s'.excludeKey = none ∨ s'.excludeKey = some []) →
        Document.IsObject host' s'.inputPath w'.store below →
        generating host s w = generating host' s' w') ∧
      (∀ (host' : Host) (s' : Settings) (w' : Workspace) (others : List (Text × Json)),
        s'.outputMode = s.outputMode → s'.disableEslintQuotes = s.disableEslintQuotes →
        s'.excludeKey = some k → Document.IsObject host' s'.inputPath w'.store others →
        Json.find? k others = some (.obj below) → generating host s w = generating host' s' w') ∧
      ∀ f, generating host s w = .error f →
        ∃ p, f = .problem p ∧ (p.kind = .invalidKeyName ∨ p.kind = .invalidOutputMode)) ∧
    (Json.find? k members = none →
      ∀ (host' : Host) (s' : Settings) (w' : Workspace),
        s'.outputMode = s.outputMode → s'.disableEslintQuotes = s.disableEslintQuotes →
        (s'.excludeKey = none ∨ s'.excludeKey = some []) →
        Document.IsObject host' s'.inputPath w'.store members →
        generating host s w = generating host' s' w') ∧
    ∀ v, Json.find? k members = some v → (∀ below, v ≠ .obj below) →
      generating host s w = .error (.problem (.unwrappedType k v.typeName)) ∧
        (Problem.unwrappedType k v.typeName).kind = .malformedInput := by
  refine ⟨fun below hbelow => ⟨?_, ?_, ?_⟩, ?_, ?_⟩
  · intro host' s' w' hmode hlint hkey' hdocument'
    rw [generating_of_find?_eq_obj host s w members k hk hkey hdocument below hbelow,
      generating_of_no_key host' s' w' below hkey' hdocument', hmode, hlint]
  · intro host' s' w' others hmode hlint hkey' hdocument' hbelow'
    rw [generating_of_find?_eq_obj host s w members k hk hkey hdocument below hbelow,
      generating_of_find?_eq_obj host' s' w' others k hk hkey' hdocument' below hbelow', hmode,
      hlint]
  · intro f hf
    rw [generating_of_find?_eq_obj host s w members k hk hkey hdocument below hbelow] at hf
    obtain ⟨p, hp, rfl⟩ := exists_of_mapError_eq_error _ _ _ hf
    exact ⟨p, rfl, Rendering.kind_of_contentsOf_eq_error _ _ _ p hp⟩
  · intro hnone host' s' w' hmode hlint hkey' hdocument'
    rw [generating_of_find?_eq_none host s w members k hk hkey hdocument hnone,
      generating_of_no_key host' s' w' members hkey' hdocument', hmode, hlint]
  · intro v hv hobj
    exact ⟨generating_of_find?_ne_obj host s w members k hk hkey hdocument v hv hobj, rfl⟩

def documentWorkspace (cs : List Char) : Workspace where
  store := ⟨[(["tmp"], .directory 0o755), (["in"], .directory 0o755),
    (["out"], .directory 0o755),
    (["in", "en.json"], .file (Utf8.encodeChars cs) 0o644)]⟩

theorem isObject_documentWorkspace (cs : List Char) (members : List (Text × Json))
    (h : Json.read (Text.universalLines cs) = .ok (.obj members)) :
    Document.IsObject bareHost bareSettings.inputPath (documentWorkspace cs).store members := by
  have hselected : Document.selected bareHost bareSettings.inputPath (documentWorkspace cs).store =
      .ok "/in/en.json" := by cbv
  have hcontent : (documentWorkspace cs).store.content bareHost.here "/in/en.json" =
      .ok (Utf8.encodeChars cs) := by cbv
  exact ⟨_, cs, hselected, ⟨_, hcontent, Utf8.decode_encodeChars cs⟩, h⟩

def wrappedDocument : List Char :=
  "\x7b\"x.y\": 1, \"t\": \x7b\"a\": \x7b\"t\": 2\x7d, \"b\": []\x7d\x7d".toList

def innerDocument : List Char := "\x7b\"a\": \x7b\"t\": 2\x7d, \"b\": []\x7d".toList

theorem generated_below_excluded_key_misnamed :
    generating bareHost { bareSettings with excludeKey := some "t" }
        (documentWorkspace wrappedDocument) =
      generating bareHost bareSettings (documentWorkspace innerDocument) ∧
    (generating bareHost bareSettings (documentWorkspace innerDocument)).toOption.map (·.1) =
      some 2 := by
  have hwrapped := isObject_documentWorkspace wrappedDocument
    [("x.y", .int 1), ("t", .obj [("a", .obj [("t", .int 2)]), ("b", .arr [])])] (by cbv)
  have hinner := isObject_documentWorkspace innerDocument
    [("a", .obj [("t", .int 2)]), ("b", .arr [])] (by cbv)
  refine ⟨?_, by decide +kernel⟩
  exact ((generated_below_excluded_key bareHost { bareSettings with excludeKey := some "t" }
    (documentWorkspace wrappedDocument) _ "t" (by decide) rfl hwrapped).1 _ rfl).1
    bareHost bareSettings _ rfl rfl (.inl rfl) hinner

end Run

end LocaleKeys
