import LocaleKeys.Proofs.Store.Agreement
import LocaleKeys.Proofs.Store.Fresh

/-!
# The temporary file of a replacement

The temporary file of a path stands beside the path under a name of its own, at a location that was
free (`exists_of_locate_temporary`). Moving it to the path sets one entry
(`setsFile_of_move_eq_ok`), and succeeds at the path of every entry that is no directory
(`move_set_of_locate`). Whether there is a place for the temporary file is the same in every store
that agrees but for names that are not hidden (`HasTemporaryPlace.congr`).
-/

namespace LocaleKeys

namespace Store

/-- Whether there is a place for the temporary file of a path: its own path leads somewhere. -/
def HasTemporaryPlace (s : Store) (here path : Text) : Prop :=
  ∃ source, s.locate here (Path.join (temporaryDirectory here path) (s.temporaryFor here path)) =
    .ok source

instance (s : Store) (here path : Text) : Decidable (s.HasTemporaryPlace here path) :=
  decidable_of_iff ((s.locate here (Path.join (temporaryDirectory here path)
      (s.temporaryFor here path))).toOption.isSome = true) <| by
    rw [HasTemporaryPlace]
    cases s.locate here (Path.join (temporaryDirectory here path) (s.temporaryFor here path)) <;>
      simp [Except.toOption]

theorem exists_temporaryFor_eq (s : Store) (here path : Text) :
    ∃ k, s.temporaryFor here path = numbered (temporaryName (Path.base path)) k := by
  obtain ⟨k, -, hk, -⟩ := exists_freshName_eq
    ((s.names here (temporaryDirectory here path)).toOption.getD [])
    (temporaryName (Path.base path))
  exact ⟨k, hk⟩

theorem exists_temporaryFor_join_eq (s : Store) (here dir name : Text) (hdir : dir ≠ [])
    (hname : Path.slash ∉ name) :
    ∃ k, s.temporaryFor here (Path.join dir name) = numbered (temporaryName name) k := by
  have h := exists_temporaryFor_eq s here (Path.join dir name)
  rwa [Path.base_join dir name hdir hname] at h

theorem exists_of_locate_temporary (s : Store) (here path : Text) (source : Location)
    (hhere : Path.isAbsolute here = true)
    (h : s.locate here (Path.join (temporaryDirectory here path) (s.temporaryFor here path)) =
      .ok source) :
    source ≠ [] ∧ s.get? source = none := by
  have hdirectory := Path.directory_absolute_ne_nil here path hhere
  obtain ⟨k, hk⟩ := exists_temporaryFor_eq s here path
  have hentry : Path.IsEntryName (s.temporaryFor here path) := by
    rw [hk]
    exact isEntryName_temporaryName _ (Path.slash_not_mem_base path) k
  obtain ⟨parent, rfl, hparent, hat, -⟩ :=
    exists_of_locate_join s here _ _ source hdirectory hentry h
  refine ⟨by simp, ?_⟩
  have hnames := (names_eq_ok_iff s here _ _).2 ⟨parent, hparent, hat, rfl⟩
  have hfresh : s.temporaryFor here path ∉ s.children parent := by
    rw [temporaryFor, temporaryDirectory, hnames]
    exact freshName_not_mem _ _ (temporaryName_injective _)
  cases he : s.get? (parent ++ [s.temporaryFor here path]) with
  | none => rfl
  | some e => exact absurd (mem_children_of_get?_eq_some s parent _ e he) hfresh

theorem isEntryName_base_of_move_eq_ok (s s' : Store) (here : Text) (source : Location)
    (path : Text) (h : s.move here source path = .ok s') : Path.IsEntryName (Path.base path) := by
  obtain ⟨above, hsplit⟩ := Path.exists_split_eq_append_base path
  have hparts : (Text.split Path.slash path).reverse = Path.base path :: above.reverse := by
    rw [hsplit]
    simp
  rw [move, hparts] at h
  simp only [bind, Except.bind, throw, throwThe, MonadExceptOf.throw] at h
  split at h
  · exact nomatch h
  split at h
  · exact nomatch h
  split at h
  · exact nomatch h
  · next name rest hname =>
      split at h
      · exact nomatch h
      split at h
      · exact nomatch h
      · next hdots =>
          split at h
          · exact nomatch h
          by_cases hempty : ((Path.base path :: above.reverse).headD []).isEmpty = true
          · rw [if_pos hempty] at h
            exact nomatch h
          · -- The path does not end in a slash, so that its base is the name that is looked at.
            rw [List.headD_cons] at hempty
            rw [List.dropWhile_cons_of_neg hempty] at hname
            rw [← (List.cons.inj hname).1, Bool.or_eq_true, decide_eq_true_eq, decide_eq_true_eq,
              not_or] at hdots
            exact ⟨fun hnil => hempty (List.isEmpty_iff.2 hnil), hdots.1, hdots.2,
              Path.slash_not_mem_base path⟩

/-- Moving a file to a path that ends in the name of an entry, with the checks in the order in which
they are made. -/
theorem move_of_isEntryName_base (s : Store) (here path : Text) (source : Location)
    (above : List Text) (hbase : Path.IsEntryName (Path.base path))
    (hsplit : Text.split Path.slash path = above ++ [Path.base path]) :
    s.move here source path =
      if pathLimit < Name.byteLength path then .error .nameTooLong
      else
        match s.walk (origin here path) (above ++ [[]]) with
        | .error r => .error r
        | .ok parent =>
            if nameLimit < Name.byteLength (Path.base path) then .error .nameTooLong
            else
              match s.get? (parent ++ [Path.base path]), s.get? source with
              | some (.directory _), _ => .error .isDirectory
              | _, some e => .ok ((s.erase source).set (parent ++ [Path.base path]) e)
              | _, none => .error .noEntry := by
  have hnil : path.isEmpty = false := by
    cases path with
    | nil => exact absurd rfl hbase.ne_nil
    | cons c t => rfl
  have hempty : (Path.base path).isEmpty = false := by
    simpa using hbase.ne_nil
  have hparts : (above ++ [Path.base path]).reverse = Path.base path :: above.reverse := by
    simp
  rw [move, hsplit, hparts]
  simp only [hnil, hempty, List.headD_cons, List.dropWhile_cons, List.reverse_reverse,
    hbase.ne_dot, hbase.ne_dotDot, Bool.false_eq_true, if_false, decide_false, Bool.or_self]
  by_cases hlength : pathLimit < Name.byteLength path
  · rw [if_pos hlength, if_pos hlength]
    rfl
  · rw [if_neg hlength, if_neg hlength]
    cases s.walk (origin here path) (above ++ [[]]) with
    | error r => rfl
    | ok parent =>
        by_cases hshort : nameLimit < Name.byteLength (Path.base path)
        · simp [bind, Except.bind, hshort, throw, throwThe, MonadExceptOf.throw]
        · simp only [bind, Except.bind, pure, Except.pure, hshort, if_false]
          rfl

/-- Whether a store is another one in which the file at the path of an entry has been set. -/
structure SetsFile (s s' : Store) (here path : Text) (data : Bytes) (mode : Mode) : Prop where
  isEntryName_base : Path.IsEntryName (Path.base path)
  exists_parent : ∃ parent, s.locate here path = .ok (parent ++ [Path.base path]) ∧
    s.IsDirectoryAt parent ∧ ¬ s.IsDirectoryAt (parent ++ [Path.base path]) ∧
      s' = s.set (parent ++ [Path.base path]) (.file data mode)

/-- A file that has just been set at a free location is moved to the path of an entry. -/
theorem setsFile_of_move_eq_ok (s s' : Store) (here path : Text) (source : Location)
    (bytes : Bytes) (mode : Mode) (hne : source ≠ []) (hfree : s.get? source = none)
    (hnames : ∀ c ∈ path, Name.isNameable c = true)
    (h : (s.set source (.file bytes mode)).move here source path = .ok s') :
    s.SetsFile s' here path bytes mode := by
  have hfile := not_isDirectoryAt_of_get?_eq_none s source hfree
  have hdirs := fun l => isDirectoryAt_set_file_iff s source l bytes mode hne hfile
  have hbase := isEntryName_base_of_move_eq_ok _ s' here source path h
  obtain ⟨above, hsplit⟩ := Path.exists_split_eq_append_base path
  rw [move_of_isEntryName_base _ here path source above hbase hsplit] at h
  refine ⟨hbase, ?_⟩
  split at h
  · exact nomatch h
  · next hlength =>
      split at h
      · exact nomatch h
      · next parent hwalk =>
          -- The new file leads no path elsewhere, so that the walk is one of the store before.
          obtain ⟨k, hk, hlast⟩ := exists_of_walk_append_eq_ok _ _ _ _ _ hwalk
          obtain ⟨hat, rfl⟩ := (walk_nil_eq_ok_iff _ k parent).1 hlast
          have hat' := (hdirs k).1 hat
          have hk' := walk_of_directories _ s (fun l => (hdirs l).1) above _ k hk
          split at h
          · exact nomatch h
          · next hshort =>
              refine ⟨k, (locate_eq_ok_iff _ _ _ _).2 ⟨hnames, ?_, ?_, ?_⟩, hat', ?_, ?_⟩
              · rintro rfl
                exact hbase.ne_nil rfl
              · exact Nat.not_lt.1 hlength
              · rw [hsplit, walk_append_of_ok s above _ _ k hk', walk_entry_eq_ok_iff s k _ _ hbase]
                exact ⟨hat', Nat.not_lt.1 hshort, rfl⟩
              · intro hdirectory
                obtain ⟨m, hm⟩ := (hdirs _).2 hdirectory
                rw [hm] at h
                exact nomatch h
              · rw [get?_set_self s source _ hne, erase_set_of_get?_eq_none s source _ hfree] at h
                split at h
                · exact nomatch h
                · next he _ =>
                    rw [Option.some.inj he]
                    exact (Except.ok.inj h).symm
                · next he _ => exact nomatch he

/-- Where a path ends in the name of an entry, a file from a free location can be moved to, unless
there is a directory. -/
theorem move_set_of_locate (s : Store) (here path : Text) (source : Location) (bytes : Bytes)
    (mode : Mode) (l : Location) (hbase : Path.IsEntryName (Path.base path))
    (hne : source ≠ []) (hfree : s.get? source = none) (hlocate : s.locate here path = .ok l)
    (hfile : ¬ s.IsDirectoryAt l) :
    (s.set source (.file bytes mode)).move here source path = .ok (s.set l (.file bytes mode)) := by
  have hnone := not_isDirectoryAt_of_get?_eq_none s source hfree
  have hdirs := fun l => isDirectoryAt_set_file_iff s source l bytes mode hne hnone
  obtain ⟨above, hsplit⟩ := Path.exists_split_eq_append_base path
  obtain ⟨-, -, hlength, hwalk⟩ := (locate_eq_ok_iff _ _ _ _).1 hlocate
  rw [hsplit] at hwalk
  obtain ⟨k, hk, hlast⟩ := exists_of_walk_append_eq_ok _ _ _ _ _ hwalk
  obtain ⟨hat, hshort, rfl⟩ := (walk_entry_eq_ok_iff s k _ _ hbase).1 hlast
  have hk' := walk_of_directories s _ (fun l => (hdirs l).2) above _ k hk
  have hparent : (s.set source (.file bytes mode)).walk (origin here path) (above ++ [[]]) =
      .ok k := by
    rw [walk_append_of_ok _ above [[]] _ k hk', walk_nil_eq_ok_iff]
    exact ⟨(hdirs k).2 hat, rfl⟩
  rw [move_of_isEntryName_base _ here path source above hbase hsplit, if_neg (Nat.not_lt.2 hlength),
    hparent]
  simp only [if_neg (Nat.not_lt.2 hshort), get?_set_self s source _ hne,
    erase_set_of_get?_eq_none s source _ hfree]
  split
  · next hm => exact absurd ((hdirs _).1 ⟨_, hm⟩) hfile
  · next he _ => rw [Option.some.inj he]
  · next he _ => exact nomatch he

theorem modeUnder_eq_of_locate (s : Store) (mask : Mode) (here path : Text) (l : Location)
    (h : s.locate here path = .ok l) :
    s.modeUnder mask here path = ((s.get? l).map Entry.mode).getD (newFileMode mask) := by
  rw [modeUnder, entry, h]
  simp only [bind, Except.bind]
  cases s.get? l <;> rfl

theorem modeUnder_set_file (s : Store) (mask : Mode) (here path : Text) (l k : Location)
    (bytes : Bytes) (mode : Mode) (hk : k ≠ []) (hfile : ¬ s.IsDirectoryAt k)
    (hl : s.locate here path = .ok l) (hne : l ≠ k) :
    (s.set k (.file bytes mode)).modeUnder mask here path = s.modeUnder mask here path := by
  have hl' := ((sameDirectories_set_file s k bytes mode hk hfile).locate_iff here path l).2 hl
  rw [modeUnder_eq_of_locate _ mask here path l hl', modeUnder_eq_of_locate s mask here path l hl,
    get?_set_of_ne s k l _ hne]

theorem HasTemporaryPlace.congr (s s' : Store) (names : List Text) (here dir name : Text)
    (hhere : Path.isAbsolute here = true) (hdir : dir ≠ []) (hname : Path.slash ∉ name)
    (hnames : ∀ n ∈ names, n.head? ≠ some (.scalar '.')) (hagree : AgreesBut names s s')
    (h : s.HasTemporaryPlace here (Path.join dir name)) :
    s'.HasTemporaryPlace here (Path.join dir name) := by
  obtain ⟨source, hsource⟩ := h
  have hdirectory := Path.directory_absolute_ne_nil here (Path.join dir name) hhere
  obtain ⟨k, hk⟩ := exists_temporaryFor_join_eq s here dir name hdir hname
  have hentry := isEntryName_temporaryName name hname k
  rw [← hk] at hentry
  obtain ⟨parent, -, hparent, hat, -⟩ := exists_of_locate_join s here _ _ source hdirectory hentry
    hsource
  have htaken := (names_eq_ok_iff s here _ _).2 ⟨parent, hparent, hat, rfl⟩
  have htaken' := (names_eq_ok_iff s' here _ _).2
    ⟨parent, (hagree.locate_iff here _ _).2 hparent, (hagree.isDirectoryAt_iff _).2 hat, rfl⟩
  -- The same hidden names are in use, so that the temporary file has the same name in both stores.
  have hsame : s'.temporaryFor here (Path.join dir name) =
      s.temporaryFor here (Path.join dir name) := by
    rw [temporaryFor, temporaryFor, temporaryDirectory, htaken, htaken']
    refine freshName_congr _ _ _ (temporaryName_injective _) fun j => ?_
    refine hagree.mem_children_iff parent _ fun hmem => hnames _ hmem ?_
    exact head?_numbered_temporaryName _ j
  refine ⟨source, (hagree.locate_iff _ _ _).2 ?_⟩
  rw [hsame]
  exact hsource

/-- Where the temporary file of an entry has a place, the absolute path of the entry leads where its
path leads. -/
theorem locate_absolute_join (s : Store) (here dir name : Text) (l : Location)
    (hhere : Path.isAbsolute here = true) (hdir : dir ≠ []) (hname : Path.IsEntryName name)
    (hplace : s.HasTemporaryPlace here (Path.join dir name))
    (h : s.locate here (Path.join dir name) = .ok l) :
    s.locate here (Path.absolute here (Path.join dir name)) = .ok l := by
  obtain ⟨source, hsource⟩ := hplace
  have hslash := hname.slash_not_mem
  obtain ⟨j, above, habove, hsegments, habsolute⟩ :=
    Path.exists_absolute_join_eq_rooted here dir name hhere hdir hname
  have hrootne : Path.rooted (j + 1) above ≠ [] := List.cons_ne_nil _ _
  obtain ⟨k, hk⟩ := exists_temporaryFor_join_eq s here dir name hdir hslash
  have hentry := isEntryName_temporaryName name hslash k
  rw [temporaryDirectory, habsolute, Path.directory_rooted j above habove name hslash,
    hk] at hsource
  -- The temporary file stands in the directory of which the absolute path of the entry speaks.
  obtain ⟨parent, -, hparent, hat, -⟩ := exists_of_locate_join s here _ _ source hrootne hentry
    hsource
  obtain rfl : parent = above := by
    rw [eq_segments_of_locate s here _ parent hhere hparent, Path.join,
      if_pos (Path.isAbsolute_rooted j above), Path.segments_rooted j above habove]
  obtain rfl : l = parent ++ [name] := by
    rw [eq_segments_of_locate s here _ l hhere h, hsegments]
  obtain ⟨-, -, -, -, hshort⟩ := exists_of_locate_join s here dir name _ hdir hname h
  have hnameable : ∀ c ∈ name, Name.isNameable c = true := fun c hc =>
    ((locate_eq_ok_iff _ _ _ _).1 h).1 c ((Path.mem_join_iff dir name hdir hslash c).2
      (.inr (.inr hc)))
  have hlength := ((locate_eq_ok_iff _ _ _ _).1 hsource).2.2.1
  have htemporary := (Path.byteLength_join _ _ hrootne hentry.slash_not_mem).1
  have hjoin := (Path.byteLength_join _ name hrootne hslash).2
  have hlonger := byteLength_lt_byteLength_temporaryName name k
  rw [habsolute, ← Path.join_rooted j parent habove name hslash]
  exact locate_join s here _ name parent hname hnameable hshort (by omega) hparent hat

/-- A temporary file has a place if its name is not too long, whichever of the numbers it gets that
the names in the directory leave free. -/
theorem hasTemporaryPlace_of_length_children_le (s : Store) (here dir name : Text) (l : Location)
    (n : Nat) (hhere : Path.isAbsolute here = true) (hdir : dir ≠ []) (hname : Path.slash ∉ name)
    (hnameable : ∀ c ∈ name, Name.isNameable c = true)
    (hl : s.locate here (temporaryDirectory here (Path.join dir name)) = .ok l)
    (hat : s.IsDirectoryAt l) (hfew : (s.children l).length ≤ n)
    (hshort : Name.byteLength name + temporaryExcess n ≤ nameLimit)
    (hlength : Name.byteLength (temporaryDirectory here (Path.join dir name)) + 1 +
      (Name.byteLength name + temporaryExcess n) ≤ pathLimit) :
    s.HasTemporaryPlace here (Path.join dir name) := by
  have htaken := (names_eq_ok_iff s here _ _).2 ⟨l, hl, hat, rfl⟩
  obtain ⟨k, hk, hfresh, -⟩ := exists_freshName_eq (s.children l) (temporaryName name)
  have htemporary : s.temporaryFor here (Path.join dir name) = numbered (temporaryName name) k := by
    rw [temporaryFor, htaken, Path.base_join dir name hdir hname]
    exact hfresh
  have hentry := isEntryName_temporaryName name hname k
  have hbytes := byteLength_temporaryName name k
  have hexcess := temporaryExcess_mono k n (Nat.le_trans hk hfew)
  have hdirectory := Path.directory_absolute_ne_nil here (Path.join dir name) hhere
  refine ⟨l ++ [numbered (temporaryName name) k], ?_⟩
  rw [htemporary]
  refine locate_join s here _ _ l hentry (isNameable_of_mem_temporaryName name hnameable k) ?_ ?_
    hl hat
  · omega
  · have := (Path.byteLength_join _ _ hdirectory hentry.slash_not_mem).2
    rw [temporaryDirectory] at hlength ⊢
    omega

end Store

end LocaleKeys
