import LocaleKeys.Proofs.Document.Rejection

/-!
# What is wrong with a document

The defects of a directory and of its first document are told in terms of the files: there is no
document (`HoldsNone`), the first one gives no tree (`IsMalformed`), or a key of its tree cannot be
used in a path (`IsMisnamed`). Each problem that a stage of loading reports is that of its defect,
and a stage that succeeds excludes its defect.
-/

namespace LocaleKeys

theorem Failure.ofStore_ne_problem (f : StoreFault) (p : Problem) : ofStore f ≠ problem p := by
  cases f with
  | system e => exact fun h => nomatch h
  | name f => cases f <;> exact fun h => nomatch h

namespace Document

variable (host : Host) (dir : Text) (s : Store)

/-- Whether a path is that of the first document of a directory, in the order of the names. -/
def IsFirst (here path : Text) : Prop :=
  ∃ d name, s.locate here dir = .ok d ∧ s.IsDirectoryAt d ∧ IsDocument s here dir d name ∧
    (∀ other, IsDocument s here dir d other → Text.le name other = true) ∧
    path = Path.absolute here (Path.join dir name)

/-- Whether no name in a directory is that of a document. -/
def HoldsNone (here : Text) : Prop :=
  ∀ d name, s.locate here dir = .ok d → ¬ IsDocument s here dir d name

/-- In a directory that may be listed the first document is selected. -/
theorem selected_eq_ok_iff_isFirst (hlisting : host.listingDenied = false) (path : Text) :
    selected host dir s = .ok path ↔ IsFirst dir s host.here path := by
  rw [selected_eq_ok_iff]
  exact and_iff_right hlisting

theorem not_holdsNone_of_isFirst (here path : Text) (h : IsFirst dir s here path) :
    ¬ HoldsNone dir s here := by
  obtain ⟨d, name, hd, -, hdocument, -⟩ := h
  exact fun hnone => hnone d name hd hdocument

theorem holdsNone_of_candidates_eq_nil (h : candidates host dir s = .ok []) :
    HoldsNone dir s host.here := by
  obtain ⟨-, -, hfiles⟩ := (candidates_eq_ok_iff _ _ _ _).1 h
  obtain ⟨l, hl, -, hnil⟩ := (Store.filesWithSuffix_eq_ok_iff _ _ _ _ _).1 hfiles
  intro d name hd hdocument
  obtain rfl := Except.ok.inj (hl.symm.trans hd)
  have hmem : name ∈ ((s.children l).filter fun name =>
      s.isFile host.here (Path.join dir name) && suffix.isSuffixOf name) :=
    List.mem_filter.2 ⟨hdocument.mem_children,
      Bool.and_eq_true_iff.2 ⟨hdocument.isFile, hdocument.isSuffixOf⟩⟩
  have hsorted := (List.mergeSort_perm _ Text.le).mem_iff.2 hmem
  rw [List.map_eq_nil_iff.1 hnil.symm] at hsorted
  exact nomatch hsorted

def HoldsText (path : Text) (cs : List Char) : Prop :=
  ∃ bytes, host.content path s = .ok bytes ∧ Utf8.decode bytes = .ok cs

/-- Whether the document at a path gives no tree: its bytes cannot be read as a text, the text is no
JSON or no object, or what stands under the key to unwrap is no object. -/
inductive IsMalformed (key : Option Text) (path : Text) : Prop
  | unread (f : StoreFault) (h : host.content path s = .error f)
  | undecoded (bytes : Bytes) (f : Utf8.DecodeFault) (hcontent : host.content path s = .ok bytes)
      (h : Utf8.decode bytes = .error f)
  | notJson (cs : List Char) (m : Json.Mistake) (place : Json.Place)
      (htext : HoldsText host s path cs)
      (h : Json.read (Text.universalLines cs) = .error (.syntaxError m place))
  | root (cs : List Char) (v : Json) (htext : HoldsText host s path cs)
      (hread : Json.read (Text.universalLines cs) = .ok v) (h : ∀ members, v ≠ .obj members)
  | wrapped (cs : List Char) (members : List (Text × Json)) (k : Text) (v : Json)
      (htext : HoldsText host s path cs)
      (hread : Json.read (Text.universalLines cs) = .ok (.obj members)) (hkey : key = some k)
      (hne : k ≠ []) (h : (KeyTree.ofMembers members).find k = .leaf v)

/-- Whether a tree is that of the document at a path after unwrapping. -/
def IsTreeOf (key : Option Text) (path : Text) (t : KeyTree Json) : Prop :=
  ∃ whole, read host path s = .ok whole ∧ unwrapped key whole = .ok t

theorem IsTreeOf.unique {key : Option Text} {path : Text} {t u : KeyTree Json}
    (ht : IsTreeOf host s key path t) (hu : IsTreeOf host s key path u) : t = u := by
  obtain ⟨whole, hread, ht⟩ := ht
  obtain ⟨whole', hread', hu⟩ := hu
  obtain rfl := Except.ok.inj (hread.symm.trans hread')
  exact Except.ok.inj (ht.symm.trans hu)

theorem read_eq_ok_iff_obj (path : Text) (t : KeyTree Json) :
    read host path s = .ok t ↔ ∃ cs members, HoldsText host s path cs ∧
      Json.read (Text.universalLines cs) = .ok (.obj members) ∧ t = KeyTree.ofMembers members := by
  rw [read_eq_ok_iff]
  constructor
  · rintro ⟨bytes, hcontent, h⟩
    unfold parse at h
    split at h
    · exact nomatch h
    · next cs hcs =>
        split at h
        · exact nomatch h
        · exact nomatch h
        · next members hread =>
            exact ⟨cs, members, ⟨bytes, hcontent, hcs⟩, hread, (Except.ok.inj h).symm⟩
        · exact nomatch h
  · rintro ⟨cs, members, ⟨bytes, hcontent, hcs⟩, hread, rfl⟩
    refine ⟨bytes, hcontent, ?_⟩
    unfold parse
    rw [hcs]
    simp only [hread]

/-- A document with a tree is not malformed. -/
theorem not_isMalformed_of_isTreeOf (key : Option Text) (path : Text)
    (t : KeyTree Json) (h : IsTreeOf host s key path t) : ¬ IsMalformed host s key path := by
  obtain ⟨whole, hread, hunwrapped⟩ := h
  obtain ⟨cs, members, ⟨bytes, hcontent, hcs⟩, hjson, rfl⟩ := (read_eq_ok_iff_obj _ _ _ _).1 hread
  have hsame : ∀ cs', HoldsText host s path cs' → cs' = cs := by
    rintro cs' ⟨bytes', hcontent', hcs'⟩
    obtain rfl := Except.ok.inj (hcontent.symm.trans hcontent')
    exact Except.ok.inj (hcs'.symm.trans hcs)
  intro hmalformed
  cases hmalformed with
  | unread f h => exact nomatch hcontent.symm.trans h
  | undecoded bytes' f hcontent' h =>
      obtain rfl := Except.ok.inj (hcontent.symm.trans hcontent')
      exact nomatch hcs.symm.trans h
  | notJson cs' m place htext h =>
      obtain rfl := hsame cs' htext
      exact nomatch hjson.symm.trans h
  | root cs' v htext hread' h =>
      obtain rfl := hsame cs' htext
      exact h members (Except.ok.inj (hread'.symm.trans hjson))
  | wrapped cs' members' k v htext hread' hkey hne h =>
      obtain rfl := hsame cs' htext
      obtain rfl := Json.obj.inj (Except.ok.inj (hread'.symm.trans hjson))
      rw [hkey, unwrapped, h] at hunwrapped
      · exact nomatch hunwrapped
      · exact hne

theorem isMalformed_of_read_eq_error (key : Option Text) (path : Text) (p : Problem)
    (h : read host path s = .error (.problem p)) :
    p.kind = .malformedInput ∧ IsMalformed host s key path := by
  unfold read at h
  split at h
  · next bytes hcontent =>
      unfold parse at h
      split at h
      · next f hf =>
          obtain rfl := Failure.problem.inj (Except.error.inj h)
          exact ⟨rfl, .undecoded bytes f hcontent hf⟩
      · next cs hcs =>
          split at h
          · next m place hread =>
              obtain rfl := Failure.problem.inj (Except.error.inj h)
              exact ⟨rfl, .notJson cs m place ⟨bytes, hcontent, hcs⟩ hread⟩
          · exact nomatch h
          · exact nomatch h
          · next v hobj hread =>
              obtain rfl := Failure.problem.inj (Except.error.inj h)
              exact ⟨rfl, .root cs v ⟨bytes, hcontent, hcs⟩ hread fun members hv => hobj members hv⟩
  · next e hcontent =>
      obtain rfl := Failure.problem.inj (Except.error.inj h)
      exact ⟨rfl, .unread _ hcontent⟩
  · next f hne hcontent => exact absurd (Except.error.inj h) (Failure.ofStore_ne_problem f p)

theorem isMalformed_of_unwrapped_eq_error (key : Option Text) (path : Text)
    (whole : KeyTree Json) (p : Problem) (hread : read host path s = .ok whole)
    (h : unwrapped key whole = .error p) :
    p.kind = .malformedInput ∧ IsMalformed host s key path := by
  obtain ⟨cs, members, htext, hjson, rfl⟩ := (read_eq_ok_iff_obj _ _ _ _).1 hread
  unfold unwrapped at h
  split at h
  · exact nomatch h
  · exact nomatch h
  · next k hne =>
      split at h
      · exact nomatch h
      · exact nomatch h
      · next v hfind =>
          obtain rfl := Except.error.inj h
          exact ⟨rfl, .wrapped cs members k v htext hjson rfl (fun hk => hne (hk ▸ rfl)) hfind⟩

/-- Whether a key of a tree cannot be used in a path: it is empty or holds the separator. -/
def IsMisnamed {α : Type} (t : KeyTree α) : Prop :=
  ∃ k ∈ t.allKeys, k = [] ∨ KeyTree.separator ∈ k

theorem checkNames_eq_ok_iff_not_isMisnamed {α : Type} (t : KeyTree α) :
    checkNames t = .ok () ↔ ¬ IsMisnamed t := by
  simp only [checkNames_eq_ok_iff, IsMisnamed, KeyTree.isName_iff, not_exists, not_and, not_or]

theorem kind_of_checkNames_eq_error {α : Type} (t : KeyTree α) (p : Problem)
    (h : checkNames t = .error p) : p.kind = .invalidKeyName := by
  unfold checkNames at h
  split at h
  · exact nomatch h
  · rw [← Except.error.inj h]
    rfl

end Document

end LocaleKeys
