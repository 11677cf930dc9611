import LocaleKeys.Locale.Catalogue
import LocaleKeys.Proofs.Document.Defects
import LocaleKeys.Proofs.Run.Host

/-!
# Looking texts up

A catalogue looks a path up by going down its document along the segments of the path. The paths of
a document are made the other way round, from the keys above a leaf. If all keys are usable in a
path the two agree (`lookup_finds_paths`): a path of the document gives the text of its leaf, and
where no leaf with that path is a text, something else stands in for it. Nothing is left of an older
document once a locale has been loaded, and nothing is found where loading has found no document.
-/

namespace LocaleKeys

namespace Catalogue

/-- Going down a document ends at a text exactly if the walk down its tree ends at that leaf. -/
theorem descend_eq_some_str_iff (ms : List (Text × Json)) (ks : List Text) (hks : ks ≠ [])
    (t : Text) :
    descend (.obj ms) ks = some (.str t) ↔ (KeyTree.ofMembers ms).follow ks = .leaf (.str t) := by
  induction ks generalizing ms with
  | nil => exact absurd rfl hks
  | cons k ks ih =>
      rw [descend, KeyTree.follow, KeyTree.find_ofMembers]
      cases Json.find? k ms with
      | none => simp
      | some v =>
          cases v with
          | obj below =>
              cases ks with
              | nil => simp [descend, KeyTree.follow]
              | cons l ls => exact ih below (List.cons_ne_nil l ls)
          -- Below any other value there is nothing to go down to.
          | _ => cases ks <;> simp [descend]

/-- What stands in for a text that is not there: the default, or the path if the default is empty.
-/
def standIn (path default : Text) : Text := if default.isEmpty then path else default

theorem message_nil_eq (c : Catalogue) (path default : Text) :
    (∀ t, descend c.texts (Text.split KeyTree.separator path) = some (.str t) →
      c.message path default [] = .ok t) ∧
    ((∀ t, descend c.texts (Text.split KeyTree.separator path) ≠ some (.str t)) →
      c.message path default [] = .ok (standIn path default)) := by
  have hmessage : c.message path default [] = .ok (c.text path default) := rfl
  rw [hmessage, text]
  constructor
  · intro t ht
    rw [ht]
  · intro hnone
    split
    · next t ht => exact absurd ht (hnone t)
    · rfl

theorem descend_nil_ne_some_str (path t : Text) :
    descend (.obj []) (Text.split KeyTree.separator path) ≠ some (.str t) := by
  obtain ⟨k, ks, hks⟩ := List.exists_cons_of_ne_nil (Text.split_ne_nil KeyTree.separator path)
  have hnone : descend (.obj []) (k :: ks) = none := rfl
  rw [hks, hnone]
  exact (Option.some_ne_none _).symm

section Loading

variable (host : Host) (directory locale : Text) (s : Store) (c : Catalogue)

def documentPath : Text := Path.join directory (locale ++ suffix)

/-- Whether there is no document of a locale: no file, or one that may not be read or whose text is
no JSON. -/
inductive HasNoDocument : Prop
  | absent (h : s.isFile host.here (documentPath directory locale) = false)
  | refused (r : Refusal) (h : host.readRefusal (documentPath directory locale) = some r)
  | notJson (cs : List Char) (m : Json.Mistake) (place : Json.Place)
      (htext : Document.HoldsText host s (documentPath directory locale) cs)
      (h : Json.read (Text.universalLines cs) = .error (.syntaxError m place))

theorem load_of_content_eq_error (f : StoreFault)
    (h : host.content (documentPath directory locale) s = .error f) :
    load host directory locale s c = .ok c.cleared := by
  rw [documentPath] at h
  rw [load, h]

theorem load_of_read_eq_ok (t : KeyTree Json)
    (h : Document.read host (documentPath directory locale) s = .ok t) :
    ∃ ms, t = KeyTree.ofMembers ms ∧
      load host directory locale s c = .ok ⟨.obj ms, locale, true⟩ := by
  obtain ⟨cs, ms, htext, hread, rfl⟩ := (Document.read_eq_ok_iff_obj _ _ _ _).1 h
  obtain ⟨bytes, hbytes, hcs⟩ := htext
  refine ⟨ms, rfl, ?_⟩
  rw [documentPath] at hbytes
  simp only [load, hbytes, hcs, hread]

theorem load_of_hasNoDocument (h : HasNoDocument host directory locale s) :
    load host directory locale s c = .ok c.cleared := by
  cases h with
  | absent h =>
      obtain ⟨f, hf⟩ := (host.exists_content_eq_error_iff _ s).2 (.inl h)
      exact load_of_content_eq_error host directory locale s c f hf
  | refused r h =>
      obtain ⟨f, hf⟩ := (host.exists_content_eq_error_iff _ s).2 (.inr ⟨r, h⟩)
      exact load_of_content_eq_error host directory locale s c f hf
  | notJson cs m place htext h =>
      obtain ⟨bytes, hbytes, hcs⟩ := htext
      rw [documentPath] at hbytes
      simp only [load, hbytes, hcs, h]

/-- Whatever has been loaded before, after loading a locale whose document has only usable keys a
path without arguments gives the text of its leaf, if it is one of the paths of the document and
that leaf is a text, and otherwise the default or the path itself; the latter for all paths if there
is no document. -/
theorem lookup_finds_paths :
    (∀ t, Document.read host (documentPath directory locale) s = .ok t →
      Document.checkNames t = .ok () →
      ∃ c', load host directory locale s c = .ok c' ∧ c'.isLoaded = true ∧
        ∀ path default,
          (∀ text, (path, .str text) ∈ (t.paths []).zip t.leaves →
            c'.message path default [] = .ok text) ∧
          ((∀ text, (path, .str text) ∉ (t.paths []).zip t.leaves) →
            c'.message path default [] = .ok (standIn path default))) ∧
    (HasNoDocument host directory locale s →
      ∃ c', load host directory locale s c = .ok c' ∧ c'.isLoaded = false ∧
        ∀ path default, c'.message path default [] = .ok (standIn path default)) := by
  constructor
  · intro t hread hnames
    have hkeys := (Document.checkNames_eq_ok_iff t).1 hnames
    obtain ⟨bytes, -, hparse⟩ := (Document.read_eq_ok_iff _ _ _ _).1 hread
    have hdistinct := Document.hasDistinctKeys_of_parse _ bytes t hparse
    obtain ⟨ms, rfl, hload⟩ := load_of_read_eq_ok host directory locale s c t hread
    refine ⟨_, hload, rfl, fun path default => ?_⟩
    have hfound : ∀ text, descend (.obj ms) (Text.split KeyTree.separator path) =
        some (.str text) ↔ (path, .str text) ∈
          ((KeyTree.ofMembers ms).paths []).zip (KeyTree.ofMembers ms).leaves := by
      intro text
      rw [descend_eq_some_str_iff ms _ (Text.split_ne_nil _ _),
        KeyTree.mem_zip_paths_leaves_iff _ hdistinct hkeys]
    obtain ⟨htext, hnone⟩ := message_nil_eq ⟨.obj ms, locale, true⟩ path default
    refine ⟨fun text hmem => htext text ((hfound text).2 hmem), fun hmem => hnone fun text h => ?_⟩
    exact hmem text ((hfound text).1 h)
  · intro h
    refine ⟨c.cleared, load_of_hasNoDocument host directory locale s c h, rfl, ?_⟩
    intro path default
    exact (message_nil_eq c.cleared path default).2 fun t => descend_nil_ne_some_str path t

def text? : Json → Option Text
  | .str t => some t
  | _ => none

theorem mem_zip_of_mem_zip_map_text? (ps : List Text) (vs : List Json) (path t : Text) :
    (path, some t) ∈ ps.zip (vs.map text?) ↔ (path, .str t) ∈ ps.zip vs := by
  rw [List.zip_map_right, List.mem_map]
  constructor
  · rintro ⟨⟨path', v⟩, hmem, h⟩
    obtain ⟨rfl, hv⟩ := Prod.mk.inj h
    cases v with
    | str u => exact Option.some.inj hv ▸ hmem
    | _ => exact nomatch hv
  · exact fun hmem => ⟨_, hmem, rfl⟩

/-- A store with the document of one locale, in which one text is empty and two leaves are none. -/
def germanStore : Store :=
  ⟨[(["loc"], .directory 0o755),
    (["loc", "de.json"], .file (Utf8.encodeChars
      "\x7b\"home\": \x7b\"title\": \"\", \"tags\": [1]\x7d, \"about\": null\x7d".toList)
      0o644)]⟩

theorem lookup_finds_paths_german :
    ∃ c' c'', load bareHost "/loc" "de" germanStore english = .ok c' ∧
      c'.message "home.title" "none" [] = .ok [] ∧ c'.message "home" [] [] = .ok "home" ∧
      c'.message "about" "none" [] = .ok "none" ∧
      load bareHost "/loc" "fr" germanStore c' = .ok c'' ∧
      c''.message "home.title" "none" [] = .ok "none" := by
  obtain ⟨t, hread, h⟩ := exists_of_map_toOption_eq_some
    (fun t : KeyTree Json =>
      ((t.paths []).zip (t.leaves.map text?), (Document.checkNames t).toOption))
    (Document.read bareHost (documentPath "/loc" "de") germanStore)
    ([("home.title", some []), ("home.tags", none), ("about", none)], some ()) (by decide +kernel)
  obtain ⟨hpaths, hchecked⟩ := Prod.mk.inj h
  obtain ⟨⟨⟩, hnames, -⟩ := exists_of_map_toOption_eq_some id (Document.checkNames t) ()
    (Option.map_id ▸ hchecked)
  obtain ⟨c', hload, -, hmessage⟩ :=
    (lookup_finds_paths bareHost "/loc" "de" germanStore english).1 t hread hnames
  obtain ⟨c'', hload', -, habsent⟩ := (lookup_finds_paths bareHost "/loc" "fr" germanStore c').2
    (.absent (by decide +kernel))
  simp only [← mem_zip_of_mem_zip_map_text?, hpaths, List.mem_cons, Prod.mk.injEq] at hmessage
  refine ⟨c', c'', hload, (hmessage "home.title" "none").1 [] (by decide),
    (hmessage "home" []).2 ?_, (hmessage "about" "none").2 ?_, hload',
    habsent "home.title" "none"⟩
  · intro text
    simp only [reduceCtorEq, and_false, List.not_mem_nil, or_false]
    exact fun h => absurd h.1 (by decide)
  · intro text
    simp only [reduceCtorEq, and_false, List.not_mem_nil, or_false]
    exact fun h => absurd h.1 (by decide)

end Loading

end Catalogue

end LocaleKeys
