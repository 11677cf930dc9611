import LocaleKeys.Proofs.Document.Defects
import LocaleKeys.Proofs.Run.Emission

/-!
# Only one file of the input directory counts

The document that defines the keys is the least file in the input directory that has the name of
one, whatever order the directory is listed in; directories with such a name and files further down
do not count. A file counts only if its path can be looked up (`Document.IsSelectable`): a directory
may be reachable by a path that is too long once a name is added to it, and the files in it are then
passed over (`Document.file_of_long_path_is_passed_over`).

What is rendered depends on that one file. Two stores in which the same file is selected and holds
the same bytes give the same artifacts or the same failure, whatever else they hold
(`selection_is_exact_and_isolating`). The document is read by its absolute path, which need not be
the path by which it was found; but all that this path meets are directories above the document,
and these are there in both stores.
-/

namespace LocaleKeys

namespace Path

theorem split_rooted (k : Nat) (names : List Text) (hne : names ≠ [])
    (hnames : ∀ n ∈ names, IsEntryName n) :
    Text.split slash (rooted k names) = List.replicate k [] ++ names := by
  induction k with
  | zero =>
      exact Text.split_join slash names hne fun n hn => (hnames n hn).slash_not_mem
  | succ k ih =>
      have hcons : rooted (k + 1) names = slash :: rooted k names := rfl
      rw [hcons, Text.split_cons_self, ih]
      rfl

end Path

namespace Store

variable (s s' : Store)

theorem isDirectoryAt_above (hs : s.IsTree) (l m : Location) (hl : s.IsDirectoryAt l)
    (h : m <+: l) : s.IsDirectoryAt m := by
  obtain ⟨rest, rfl⟩ := h
  induction rest using List.reverseRecOn with
  | nil => rwa [List.append_nil] at hl
  | append_singleton rest name ih =>
      rw [← List.append_assoc] at hl
      obtain ⟨mode, hget⟩ := hl
      exact ih (hs _ name _ hget).2

/-- Names lead to the same place, or fail in the same way, if there are directories in both stores
before each of them. -/
theorem walk_eq_of_directories (names : List Text) (hnames : ∀ n ∈ names, Path.IsEntryName n)
    (l : Location)
    (h : ∀ p n, p ++ [n] <+: names → s.IsDirectoryAt (l ++ p) ∧ s'.IsDirectoryAt (l ++ p)) :
    s.walk l names = s'.walk l names := by
  induction names generalizing l with
  | nil => rfl
  | cons name names ih =>
      obtain ⟨hname, hnames⟩ := List.forall_mem_cons.1 hnames
      obtain ⟨⟨mode, hget⟩, ⟨mode', hget'⟩⟩ := h [] name (List.prefix_append [name] names)
      rw [List.append_nil] at hget hget'
      have hrest := ih hnames (l ++ [name]) fun p n hp => by
        rw [List.append_assoc]
        exact h (name :: p) n (List.cons_prefix_cons.2 ⟨rfl, hp⟩)
      rw [walk, walk, hget, hget', hrest]
      simp [hname.ne_nil, hname.ne_dot, hname.ne_dotDot]

theorem walk_nil_replicate (k : Nat) (names : List Text) :
    s.walk [] (List.replicate k [] ++ names) = s.walk [] names := by
  induction k with
  | zero => rfl
  | succ k ih => exact ih

/-- An absolute path in normal form leads to the same place, or fails in the same way, if the
directories on the way are there in both stores. -/
theorem locate_rooted_eq (here : Text) (k : Nat) (names : List Text) (hne : names ≠ [])
    (hnames : ∀ n ∈ names, Path.IsEntryName n)
    (h : ∀ p n, p ++ [n] <+: names → s.IsDirectoryAt p ∧ s'.IsDirectoryAt p) :
    s.locate here (Path.rooted (k + 1) names) = s'.locate here (Path.rooted (k + 1) names) := by
  have hwalk := walk_eq_of_directories s s' names hnames [] h
  rw [locate, locate, Path.split_rooted (k + 1) names hne hnames, origin, Path.isAbsolute_rooted,
    if_pos rfl, walk_nil_replicate, walk_nil_replicate, hwalk]

/-- The content of a file is read alike by its absolute path, whatever else is in the stores. -/
theorem content_absolute_eq (hs : s.IsTree) (hs' : s'.IsTree) (here dir name : Text)
    (hhere : Path.isAbsolute here = true) (hdir : dir ≠ []) (d : Location)
    (hl : s.locate here (Path.join dir name) = .ok (d ++ [name]))
    (bytes : Bytes) (mode mode' : Mode) (hget : s.get? (d ++ [name]) = some (.file bytes mode))
    (hget' : s'.get? (d ++ [name]) = some (.file bytes mode')) :
    s.content here (Path.absolute here (Path.join dir name)) =
      s'.content here (Path.absolute here (Path.join dir name)) := by
  obtain ⟨hname, hd⟩ := hs d name _ hget
  obtain ⟨-, hd'⟩ := hs' d name _ hget'
  obtain ⟨k, above, habove, -, habsolute⟩ :=
    Path.exists_absolute_join_eq_rooted here dir name hhere hdir hname
  have hnames : ∀ n ∈ above ++ [name], Path.IsEntryName n :=
    List.forall_mem_append.2 ⟨habove, List.forall_mem_singleton.2 hname⟩
  have hsegments := s.segments_absolute_of_locate here dir name _ hhere hdir hname hl
  rw [habsolute, Path.segments_rooted k _ hnames] at hsegments
  obtain rfl := (List.append_inj' hsegments rfl).1
  rw [habsolute]
  -- Before each name on the way there is a directory above the document.
  have hlocate := locate_rooted_eq s s' here k (above ++ [name]) (by simp) hnames
    fun p n hp => by
      have hp : p <+: above := by
        rcases List.prefix_concat_iff.1 hp with hp | hp
        · exact (List.append_inj' hp rfl).1 ▸ List.prefix_rfl
        · exact (List.prefix_append p [n]).trans hp
      exact ⟨s.isDirectoryAt_above hs above p hd hp, s'.isDirectoryAt_above hs' above p hd' hp⟩
  rw [content, content, entry, entry, hlocate]
  cases hfound : s'.locate here (Path.rooted (k + 1) (above ++ [name])) with
  | error f => rfl
  | ok l =>
      obtain rfl : l = above ++ [name] :=
        (s'.eq_segments_of_locate_of_isAbsolute here _ l hhere (Path.isAbsolute_rooted k _)
          hfound).trans (Path.segments_rooted k _ hnames)
      simp [bind, Except.bind, hget, hget']

end Store

namespace Document

variable (host : Host) (s s' : Store) (dir : Text) (d : Location)

/-- Whether a name in a directory is that of a document, as its entry tells: it is a file with such
a name, and the path of the directory has room for the name. -/
structure IsSelectable (name : Text) : Prop where
  isFileAt : s.IsFileAt (d ++ [name])
  isSuffixOf : suffix.isSuffixOf name = true
  isNameable : ∀ c ∈ name, Name.isNameable c = true
  byteLength_le : Name.byteLength name ≤ Store.nameLimit
  byteLength_join_le : Name.byteLength (Path.join dir name) ≤ Store.pathLimit

/-- Whether a name is the least one of a document. -/
structure IsLeast (name : Text) : Prop extends IsSelectable s dir d name where
  le : ∀ other, IsSelectable s dir d other → Text.le name other = true

section Directory

variable (hs : s.IsTree) (hd : s.locate host.here dir = .ok d) (hat : s.IsDirectoryAt d)
include hs hd

theorem isSelectable_of_isDocument (name : Text) (h : IsDocument s host.here dir d name) :
    IsSelectable s dir d name := by
  have hdir := ((Store.locate_eq_ok_iff _ _ _ _).1 hd).2.1
  have hname := s.isEntryName_of_mem_children hs d name h.mem_children
  obtain ⟨l, bytes, mode, hl, hget⟩ := (Store.isFile_iff _ _ _).1 h.isFile
  obtain ⟨parent, rfl, hparent, -, hshort⟩ :=
    Store.exists_of_locate_join s host.here dir name l hdir hname hl
  obtain rfl := Except.ok.inj (hd.symm.trans hparent)
  obtain ⟨hnameable, -, hlength, -⟩ := (Store.locate_eq_ok_iff _ _ _ _).1 hl
  exact ⟨⟨bytes, mode, hget⟩, h.isSuffixOf,
    fun c hc => hnameable c ((Path.mem_join_iff dir name hdir hname.slash_not_mem c).2
      (.inr (.inr hc))), hshort, hlength⟩

include hat

theorem IsSelectable.locate_eq {name : Text} (h : IsSelectable s dir d name) :
    s.locate host.here (Path.join dir name) = .ok (d ++ [name]) := by
  obtain ⟨bytes, mode, hget⟩ := h.isFileAt
  exact Store.locate_join s host.here dir name d (hs d name _ hget).1 h.isNameable h.byteLength_le
    h.byteLength_join_le hd hat

theorem isDocument_iff_isSelectable (name : Text) :
    IsDocument s host.here dir d name ↔ IsSelectable s dir d name := by
  refine ⟨isSelectable_of_isDocument host s dir d hs hd name, fun h => ?_⟩
  obtain ⟨bytes, mode, hget⟩ := h.isFileAt
  exact ⟨Store.mem_children_of_get?_eq_some s d name _ hget, h.isSuffixOf,
    (Store.isFile_iff _ _ _).2 ⟨_, bytes, mode, h.locate_eq host s dir d hs hd hat, hget⟩⟩

theorem selected_of_isLeast (hlisting : host.listingDenied = false) (name : Text)
    (h : IsLeast s dir d name) :
    selected host dir s = .ok (Path.absolute host.here (Path.join dir name)) := by
  have hiff := isDocument_iff_isSelectable host s dir d hs hd hat
  exact (selected_eq_ok_iff _ _ _ _).2 ⟨hlisting, d, name, hd, hat, (hiff name).2 h.toIsSelectable,
    fun other hother => h.le other ((hiff other).1 hother), rfl⟩

theorem exists_isLeast_or_none (hlisting : host.listingDenied = false) :
    (∃ name, IsLeast s dir d name ∧
      selected host dir s = .ok (Path.absolute host.here (Path.join dir name))) ∨
    (∀ name, ¬ IsSelectable s dir d name) ∧
      selected host dir s = .error (.problem (.noDocument dir)) := by
  have hiff := isDocument_iff_isSelectable host s dir d hs hd hat
  obtain ⟨paths, hpaths⟩ : ∃ paths, candidates host dir s = .ok paths :=
    ⟨_, (candidates_eq_ok_iff _ _ _ _).2 ⟨(Store.isDirectory_iff _ _ _).2 ⟨d, hd, hat⟩, hlisting,
      (Store.filesWithSuffix_eq_ok_iff _ _ _ _ _).2 ⟨d, hd, hat, rfl⟩⟩⟩
  cases paths with
  | nil =>
      refine .inr ⟨fun name h => ?_, by rw [selected, hpaths]; rfl⟩
      exact holdsNone_of_candidates_eq_nil host dir s hpaths d name hd ((hiff name).2 h)
  | cons path others =>
      have hselected : selected host dir s = .ok path := by
        rw [selected, hpaths]
        rfl
      obtain ⟨-, d', name, hd', -, hdocument, hleast, rfl⟩ :=
        (selected_eq_ok_iff _ _ _ _).1 hselected
      obtain rfl := Except.ok.inj (hd.symm.trans hd')
      exact .inl ⟨name, ⟨(hiff name).1 hdocument, fun other hother =>
        hleast other ((hiff other).2 hother)⟩, hselected⟩

end Directory

theorem selected_of_listingDenied (hd : s.locate host.here dir = .ok d) (hat : s.IsDirectoryAt d)
    (hlisting : host.listingDenied = true) :
    selected host dir s = .error (.problem (.inputUnlisted dir (.about .accessDenied dir))) := by
  rw [selected, candidates, (Store.isDirectory_iff _ _ _).2 ⟨d, hd, hat⟩, files, hlisting]
  rfl

/-- Loading depends on what is selected and on the bytes of that document. -/
theorem loaded_congr (key : Option Text) (hselected : selected host dir s = selected host dir s')
    (hcontent : ∀ path, selected host dir s = .ok path →
      s.content host.here path = s'.content host.here path) :
    loaded host dir key s = loaded host dir key s' := by
  unfold loaded
  rw [← hselected]
  cases h : selected host dir s with
  | error f => rfl
  | ok path =>
      have hread : read host path s = read host path s' := by
        rw [read, Host.content, hcontent path h, read, Host.content]
      simp only [bind, Except.bind, hread]

theorem loaded_eq_of_isLeast (hhere : Path.isAbsolute host.here = true) (key : Option Text)
    (hs : s.IsTree) (hs' : s'.IsTree) (hd : s.locate host.here dir = .ok d)
    (hd' : s'.locate host.here dir = .ok d) (hat : s.IsDirectoryAt d) (hat' : s'.IsDirectoryAt d)
    (name : Text) (h : IsLeast s dir d name) (h' : IsLeast s' dir d name) (bytes : Bytes)
    (mode mode' : Mode) (hget : s.get? (d ++ [name]) = some (.file bytes mode))
    (hget' : s'.get? (d ++ [name]) = some (.file bytes mode')) :
    loaded host dir key s = loaded host dir key s' := by
  cases hlisting : host.listingDenied with
  | true =>
      have hselected := selected_of_listingDenied host s dir d hd hat hlisting
      have hselected' := selected_of_listingDenied host s' dir d hd' hat' hlisting
      refine loaded_congr host s s' dir key (hselected.trans hselected'.symm) fun path hpath => ?_
      exact nomatch hselected.symm.trans hpath
  | false =>
      have hselected := selected_of_isLeast host s dir d hs hd hat hlisting name h
      have hselected' := selected_of_isLeast host s' dir d hs' hd' hat' hlisting name h'
      refine loaded_congr host s s' dir key (hselected.trans hselected'.symm) fun path hpath => ?_
      obtain rfl := Except.ok.inj (hselected.symm.trans hpath)
      exact Store.content_absolute_eq s s' hs hs' host.here dir name hhere
        ((Store.locate_eq_ok_iff _ _ _ _).1 hd).2.1 d (h.locate_eq host s dir d hs hd hat) bytes
        mode mode' hget hget'

end Document

namespace Run

/-- The artifacts depend on the least document and its bytes: it is selected by its name alone, and
two stores with the same least document give the same result. -/
theorem selection_is_exact_and_isolating (host : Host) (s : Settings)
    (hhere : Path.isAbsolute host.here = true) (w : Workspace) (hw : w.store.IsTree) (d : Location)
    (hd : w.store.locate host.here s.inputPath = .ok d) (hat : w.store.IsDirectoryAt d) :
    (host.listingDenied = false →
      (∃ name, Document.IsLeast w.store s.inputPath d name ∧
        ((Document.discover host s.inputPath).runOn w).1 =
          .ok (Path.absolute host.here (Path.join s.inputPath name))) ∨
      (∀ name, ¬ Document.IsSelectable w.store s.inputPath d name) ∧
        ((Document.discover host s.inputPath).runOn w).1 =
          .error (.problem (.noDocument s.inputPath))) ∧
    ∀ (w' : Workspace) (name : Text) (bytes : Bytes) (mode mode' : Mode), w'.store.IsTree →
      w'.store.locate host.here s.inputPath = .ok d → w'.store.IsDirectoryAt d →
      Document.IsLeast w.store s.inputPath d name →
      Document.IsLeast w'.store s.inputPath d name →
      w.store.get? (d ++ [name]) = some (.file bytes mode) →
      w'.store.get? (d ++ [name]) = some (.file bytes mode') →
      ((generate host s).runOn w').1 = ((generate host s).runOn w).1 := by
  rw [(Document.reads_discover host s.inputPath).fst_runOn]
  refine ⟨Document.exists_isLeast_or_none host w.store s.inputPath d hw hd hat, ?_⟩
  intro w' name bytes mode mode' hw' hd' hat' hleast hleast' hget hget'
  rw [(reads_generate host s).fst_runOn, (reads_generate host s).fst_runOn, generated, generated]
  rw [Document.loaded_eq_of_isLeast host w.store w'.store s.inputPath d hhere s.excludeKey hw hw' hd
    hd' hat hat' name hleast hleast' bytes mode mode' hget hget']

/-- The same document beside a greater one and a directory with a lesser name, which holds another.
-/
def crowdedWorkspace : Workspace where
  store := ((nestedWorkspace.store.set ["in", "zh.json"] (.file [] 0o644)).set
    ["in", "a.json"] (.directory 0o755)).set ["in", "a.json", "b.json"]
      (.file [] 0o644)

theorem isTree_crowdedWorkspace : crowdedWorkspace.store.IsTree := by
  have hzh := Store.isTree_set_file _ ["in"] "zh.json" [] 0o644 isTree_nestedWorkspace
    (by decide) ⟨0o755, by decide⟩ fun ⟨m, hm⟩ => nomatch hm
  have ha := Store.isTree_set_directory _ ["in"] "a.json" 0o755 hzh (by decide)
    ⟨0o755, by decide⟩
  exact Store.isTree_set_file _ ["in", "a.json"] "b.json" [] 0o644 ha (by decide)
    ⟨0o755, by decide⟩ fun ⟨m, hm⟩ => nomatch hm

theorem isLeast_en (s : Store) (hfile : s.IsFileAt ["in", "en.json"])
    (h : ∀ name ∈ s.children ["in"],
      Text.le "en.json" name = true ∨ s.bytesAt? ["in", name] = none) :
    Document.IsLeast s "/in" ["in"] "en.json" := by
  refine ⟨⟨hfile, by decide, by decide, by decide, by decide⟩, fun other hother => ?_⟩
  obtain ⟨bytes, mode, hget⟩ := hother.isFileAt
  refine (h other (Store.mem_children_of_get?_eq_some s ["in"] other _ hget)).resolve_right ?_
  have hbytes : s.bytesAt? ((["in"] : Location) ++ [other]) = some bytes := by
    rw [Store.bytesAt?, hget]
  exact fun hnone => Option.some_ne_none bytes (hbytes.symm.trans hnone)

theorem selection_is_exact_and_isolating_crowded :
    Document.IsLeast crowdedWorkspace.store "/in" ["in"] "en.json" ∧
    ((generate bareHost bareSettings).runOn crowdedWorkspace).1 =
      ((generate bareHost bareSettings).runOn nestedWorkspace).1 := by
  have hleast := isLeast_en nestedWorkspace.store ⟨_, 0o644, rfl⟩ (by decide +kernel)
  have hleast' := isLeast_en crowdedWorkspace.store ⟨_, 0o644, rfl⟩ (by decide +kernel)
  obtain ⟨-, hsame⟩ := selection_is_exact_and_isolating bareHost bareSettings (by decide)
    nestedWorkspace isTree_nestedWorkspace ["in"] (by decide +kernel) ⟨0o755, by decide⟩
  exact ⟨hleast', hsame crowdedWorkspace "en.json" _ 0o644 0o644 isTree_crowdedWorkspace
    (by decide +kernel) ⟨0o755, by decide⟩ hleast hleast' rfl rfl⟩

end Run

namespace Document

/-- The path of a directory with 4089 bytes, which has no room for the name of a document. -/
def longDirectory : Text := "/in" ++ (List.replicate 2043 ("/." : Text)).flatten

/-- The document in a directory with a long path is passed over. -/
theorem file_of_long_path_is_passed_over :
    Run.nestedWorkspace.store.locate bareHost.here longDirectory = .ok ["in"] ∧
    Run.nestedWorkspace.store.IsDirectoryAt ["in"] ∧
    Run.nestedWorkspace.store.IsFileAt ["in", "en.json"] ∧
    suffix.isSuffixOf "en.json" = true ∧
    ((discover bareHost longDirectory).runOn Run.nestedWorkspace).1 =
      .error (.problem (.noDocument longDirectory)) := by
  refine ⟨by decide +kernel, ⟨0o755, by decide⟩, ⟨_, 0o644, rfl⟩, by decide, ?_⟩
  obtain ⟨paths, hcandidates, rfl⟩ := exists_of_map_toOption_eq_some id
    (candidates bareHost longDirectory Run.nestedWorkspace.store) [] (by decide +kernel)
  rw [(reads_discover _ _).fst_runOn, selected, hcandidates]
  rfl

end Document

end LocaleKeys
