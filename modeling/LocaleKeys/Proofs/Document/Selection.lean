import LocaleKeys.Proofs.Document.Loading
import LocaleKeys.Proofs.Run.Host
import LocaleKeys.Proofs.Store.Agreement
import LocaleKeys.Proofs.Text.Order

/-!
# The document that is selected

Which document defines the keys depends on the directory and on the names in it that are those of
documents: the least of them is selected (`selected_eq_ok_iff`). It is the same one in every store
that has the same directories and the same files with names of documents, whatever they hold
(`selected_of_sameDocuments`), and the same tree is loaded if they hold the same
(`loaded_of_agreesBut`). The path that is chosen leads to an entry with such a name
(`exists_of_locate_selected`).
-/

namespace LocaleKeys

namespace Store

theorem filesWithSuffix_eq_ok_iff (s : Store) (here dir suffix : Text) (paths : List Text) :
    s.filesWithSuffix here dir suffix = .ok paths ↔
      ∃ l, s.locate here dir = .ok l ∧ s.IsDirectoryAt l ∧
        paths = (((s.children l).filter fun name => s.isFile here (Path.join dir name) &&
          suffix.isSuffixOf name).mergeSort Text.le).map
            fun name => Path.absolute here (Path.join dir name) := by
  rw [filesWithSuffix]
  have hsame : ∀ ns : List Text, ((((ns.mergeSort Text.le).filter suffix.isSuffixOf).map
      (Path.join dir)).filter (s.isFile here)).map (Path.absolute here) =
        ((ns.filter fun name => s.isFile here (Path.join dir name) &&
          suffix.isSuffixOf name).mergeSort Text.le).map
            fun name => Path.absolute here (Path.join dir name) := by
    intro ns
    rw [List.filter_map, List.filter_filter, List.map_map, Text.filter_mergeSort_le]
    rfl
  constructor
  · intro h
    cases hnames : s.names here dir with
    | error f =>
        rw [hnames] at h
        exact nomatch h
    | ok ns =>
        obtain ⟨l, hl, hat, rfl⟩ := (names_eq_ok_iff s here dir ns).1 hnames
        rw [hnames] at h
        refine ⟨l, hl, hat, ?_⟩
        rw [← hsame]
        exact (Except.ok.inj h).symm
  · rintro ⟨l, hl, hat, rfl⟩
    rw [(names_eq_ok_iff s here dir _).2 ⟨l, hl, hat, rfl⟩, ← hsame]
    rfl

end Store

namespace Document

theorem candidates_eq_ok_iff (host : Host) (dir : Text) (s : Store) (paths : List Text) :
    candidates host dir s = .ok paths ↔
      s.isDirectory host.here dir = true ∧ host.listingDenied = false ∧
        s.filesWithSuffix host.here dir suffix = .ok paths := by
  have hfiles : files host dir suffix s = .ok paths ↔ host.listingDenied = false ∧
      s.filesWithSuffix host.here dir suffix = .ok paths := by
    rw [files]
    cases host.listingDenied <;> simp
  rw [← hfiles, candidates]
  cases s.isDirectory host.here dir with
  | false => simp
  | true =>
      cases files host dir suffix s with
      | ok paths => simp
      | error f => cases f <;> simp

/-- Whether a name in a directory is that of a document. -/
structure IsDocument (s : Store) (here dir : Text) (d : Location) (name : Text) : Prop where
  mem_children : name ∈ s.children d
  isSuffixOf : suffix.isSuffixOf name = true
  isFile : s.isFile here (Path.join dir name) = true

/-- The least document of a directory is selected. -/
theorem selected_eq_ok_iff (host : Host) (dir : Text) (s : Store) (path : Text) :
    selected host dir s = .ok path ↔ host.listingDenied = false ∧
      ∃ d name, s.locate host.here dir = .ok d ∧ s.IsDirectoryAt d ∧
        IsDocument s host.here dir d name ∧
        (∀ other, IsDocument s host.here dir d other → Text.le name other = true) ∧
        path = Path.absolute host.here (Path.join dir name) := by
  have hhead : selected host dir s = .ok path ↔
      ∃ paths, candidates host dir s = .ok paths ∧ paths.head? = some path := by
    rw [selected]
    cases candidates host dir s with
    | error f => simp [bind, Except.bind]
    | ok paths => cases paths <;> simp [bind, Except.bind]
  have hmem : ∀ d name, name ∈ ((s.children d).filter fun name =>
      s.isFile host.here (Path.join dir name) && suffix.isSuffixOf name) ↔
        IsDocument s host.here dir d name := by
    intro d name
    rw [List.mem_filter, Bool.and_eq_true]
    exact ⟨fun h => ⟨h.1, h.2.2, h.2.1⟩, fun h => ⟨h.mem_children, h.isFile, h.isSuffixOf⟩⟩
  simp only [hhead, candidates_eq_ok_iff, Store.filesWithSuffix_eq_ok_iff]
  constructor
  · rintro ⟨paths, ⟨-, hlisting, d, hd, hat, rfl⟩, hpath⟩
    rw [List.head?_map] at hpath
    obtain ⟨name, hname, rfl⟩ := Option.map_eq_some_iff.1 hpath
    obtain ⟨hdocument, hleast⟩ := (Text.head?_mergeSort_le_eq_some_iff _ name).1 hname
    exact ⟨hlisting, d, name, hd, hat, (hmem d name).1 hdocument,
      fun other hother => hleast other ((hmem d other).2 hother), rfl⟩
  · rintro ⟨hlisting, d, name, hd, hat, hdocument, hleast, rfl⟩
    refine ⟨_, ⟨(Store.isDirectory_iff _ _ _).2 ⟨d, hd, hat⟩, hlisting, d, hd, hat, rfl⟩, ?_⟩
    rw [List.head?_map, (Text.head?_mergeSort_le_eq_some_iff _ name).2
      ⟨(hmem d name).2 hdocument, fun other hother => hleast other ((hmem d other).1 hother)⟩]
    rfl

/-- Whether two stores have the same directories, and files with names of documents at the same
locations. -/
structure SameDocuments (s s' : Store) : Prop extends Store.SameDirectories s s' where
  isFileAt_iff : ∀ parent name, suffix.isSuffixOf name = true →
    (s'.IsFileAt (parent ++ [name]) ↔ s.IsFileAt (parent ++ [name]))

theorem sameDocuments_of_agreesBut (s s' : Store) (names : List Text)
    (hnames : ∀ n ∈ names, suffix.isSuffixOf n = false) (h : Store.AgreesBut names s s') :
    SameDocuments s s' where
  toSameDirectories := h.toSameDirectories
  isFileAt_iff parent name hname := by
    rw [Store.IsFileAt, h.get?_eq parent name fun hmem => ?_, Store.IsFileAt]
    exact absurd ((hnames name hmem).symm.trans hname) Bool.false_ne_true

/-- Overwriting a file leaves the documents, though not what they hold. -/
theorem sameDocuments_set_of_get?_eq_file (s : Store) (l : Location) (old bytes : Bytes)
    (m mode : Mode) (h : s.get? l = some (.file old m)) :
    SameDocuments s (s.set l (.file bytes mode)) where
  toSameDirectories := Store.sameDirectories_set_file s l bytes mode
    (Store.ne_nil_of_get?_eq_file s l old m h) (Store.not_isDirectoryAt_of_get?_eq_file s l old m h)
  isFileAt_iff parent name _ := by
    by_cases hl : parent ++ [name] = l
    · subst hl
      exact iff_of_true ⟨bytes, mode, Store.get?_set_self s _ _ (by simp)⟩ ⟨old, m, h⟩
    · rw [Store.IsFileAt, Store.get?_set_of_ne s _ _ _ hl, Store.IsFileAt]

theorem SameDocuments.isDocument_iff {s s' : Store} (h : SameDocuments s s') (hs : s.IsTree)
    (here dir : Text) (d : Location) (hd : s.locate here dir = .ok d) (name : Text) :
    IsDocument s' here dir d name ↔ IsDocument s here dir d name := by
  have hdirne := ((Store.locate_eq_ok_iff _ _ _ _).1 hd).2.1
  have hchild : suffix.isSuffixOf name = true →
      (name ∈ s'.children d ↔ name ∈ s.children d) := by
    intro hsuffix
    rw [Store.mem_children_iff, Store.mem_children_iff, Store.isSome_get?_iff,
      Store.isSome_get?_iff, h.isFileAt_iff d name hsuffix, h.isDirectoryAt_iff]
  have hisFile : suffix.isSuffixOf name = true → name ∈ s.children d →
      (s'.isFile here (Path.join dir name) = true ↔ s.isFile here (Path.join dir name) = true) := by
    intro hsuffix hmem
    have hname := s.isEntryName_of_mem_children hs d name hmem
    rw [Store.isFile_iff, Store.isFile_iff]
    simp only [h.locate_iff]
    refine exists_congr fun l => ?_
    simp only [exists_and_left]
    refine and_congr_right fun hl => ?_
    obtain ⟨parent, rfl, -⟩ := Store.exists_of_locate_join s here dir name l hdirne hname hl
    exact h.isFileAt_iff parent name hsuffix
  constructor
  · rintro ⟨hmem, hsuffix, hfile⟩
    have hmem := (hchild hsuffix).1 hmem
    exact ⟨hmem, hsuffix, (hisFile hsuffix hmem).1 hfile⟩
  · rintro ⟨hmem, hsuffix, hfile⟩
    exact ⟨(hchild hsuffix).2 hmem, hsuffix, (hisFile hsuffix hmem).2 hfile⟩

theorem selected_of_sameDocuments (host : Host) (dir path : Text) (s s' : Store) (hs : s.IsTree)
    (hsame : SameDocuments s s') (h : selected host dir s = .ok path) :
    selected host dir s' = .ok path := by
  rw [selected_eq_ok_iff] at h ⊢
  obtain ⟨hlisting, d, name, hd, hat, hdocument, hleast, rfl⟩ := h
  have hiff := hsame.isDocument_iff hs host.here dir d hd
  exact ⟨hlisting, d, name, (hsame.locate_iff _ _ _).2 hd, (hsame.isDirectoryAt_iff d).2 hat,
    (hiff name).2 hdocument, fun other hother => hleast other ((hiff other).1 hother), rfl⟩

theorem exists_of_locate_selected (host : Host) (hhere : Path.isAbsolute host.here = true)
    (dir : Text) (s s' : Store) (hs : s.IsTree) (path : Text) (l : Location)
    (h : selected host dir s = .ok path) (hl : s'.locate host.here path = .ok l) :
    ∃ parent name, l = parent ++ [name] ∧ suffix.isSuffixOf name = true := by
  obtain ⟨-, d, name, hd, -, hdocument, -, rfl⟩ := (selected_eq_ok_iff _ _ _ _).1 h
  have hdirne := ((Store.locate_eq_ok_iff _ _ _ _).1 hd).2.1
  have hentry := s.isEntryName_of_mem_children hs d name hdocument.mem_children
  obtain ⟨d', hd', habsolute⟩ := Path.exists_absolute_join_eq host.here dir name hhere hdirne hentry
  rw [habsolute] at hl
  obtain ⟨parent, rfl, -⟩ := Store.exists_of_locate_join s' host.here d' name l hd' hentry hl
  exact ⟨parent, name, rfl, hdocument.isSuffixOf⟩

end Document

end LocaleKeys
