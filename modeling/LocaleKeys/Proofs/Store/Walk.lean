import LocaleKeys.Proofs.Path.Normal
import LocaleKeys.Store.Access
import LocaleKeys.Store.Lemmas

/-!
# Following paths

Whether a path leads anywhere depends on the directories of a store alone, so that a store with all
directories of another one leads every path that the other one leads to the same location
(`locate_of_directories`), the one that its text alone names (`eq_segments_of_locate`). The path of
an entry leads to the directory and then to the name (`exists_of_locate_join`, `locate_join`).
-/

namespace LocaleKeys

namespace Store

def IsDirectoryAt (s : Store) (l : Location) : Prop := ∃ m, s.get? l = some (.directory m)

def IsFileAt (s : Store) (l : Location) : Prop := ∃ bytes m, s.get? l = some (.file bytes m)

theorem isSome_get?_iff (s : Store) (l : Location) :
    (s.get? l).isSome = true ↔ s.IsFileAt l ∨ s.IsDirectoryAt l := by
  rw [IsFileAt, IsDirectoryAt]
  rcases s.get? l with _ | ⟨bytes, m⟩ | m <;> simp

/-- Whether every entry has the name of one and stands in a directory. -/
def IsTree (s : Store) : Prop :=
  ∀ (l : Location) (name : Text) (e : Entry), s.get? (l ++ [name]) = some e →
    Path.IsEntryName name ∧ s.IsDirectoryAt l

theorem isDirectoryAt_nil (s : Store) : s.IsDirectoryAt [] := ⟨rootMode, rfl⟩

theorem walk_cons_eq_ok_iff (s : Store) (l m : Location) (name : Text) (names : List Text) :
    s.walk l (name :: names) = .ok m ↔
      s.IsDirectoryAt l ∧
        (if name.isEmpty || name = Path.dot then s.walk l names
        else if name = Path.dotDot then s.walk l.dropLast names
        else if nameLimit < Name.byteLength name then .error .nameTooLong
        else s.walk (l ++ [name]) names) = .ok m := by
  rw [walk]
  unfold IsDirectoryAt
  rcases s.get? l with _ | ⟨bytes, mode⟩ | mode <;> simp

theorem walk_of_directories (s s' : Store) (h : ∀ l, s.IsDirectoryAt l → s'.IsDirectoryAt l)
    (names : List Text) (l m : Location) (hwalk : s.walk l names = .ok m) :
    s'.walk l names = .ok m := by
  induction names generalizing l with
  | nil => exact hwalk
  | cons name names ih =>
      rw [walk_cons_eq_ok_iff] at hwalk ⊢
      obtain ⟨hdir, hrest⟩ := hwalk
      refine ⟨h l hdir, ?_⟩
      split at hrest
      · next hname =>
          rw [if_pos hname]
          exact ih l hrest
      · next hname =>
          rw [if_neg hname]
          split at hrest
          · next hdots =>
              rw [if_pos hdots]
              exact ih _ hrest
          · next hdots =>
              rw [if_neg hdots]
              split at hrest
              · exact nomatch hrest
              · next hlength =>
                  rw [if_neg hlength]
                  exact ih _ hrest

theorem walk_append_of_ok (s : Store) (xs ys : List Text) (l m : Location)
    (h : s.walk l xs = .ok m) : s.walk l (xs ++ ys) = s.walk m ys := by
  induction xs generalizing l with
  | nil =>
      obtain rfl := Except.ok.inj h
      rfl
  | cons name names ih =>
      obtain ⟨⟨mode, hdir⟩, hrest⟩ := (walk_cons_eq_ok_iff _ _ _ _ _).1 h
      rw [List.cons_append, walk, hdir]
      simp only
      split at hrest
      · next hname => rw [if_pos hname, ih l hrest]
      · next hname =>
          rw [if_neg hname]
          split at hrest
          · next hdots => rw [if_pos hdots, ih _ hrest]
          · next hdots =>
              rw [if_neg hdots]
              split at hrest
              · exact nomatch hrest
              · next hlength => rw [if_neg hlength, ih _ hrest]

theorem exists_of_walk_append_eq_ok (s : Store) (xs ys : List Text) (l m : Location)
    (h : s.walk l (xs ++ ys) = .ok m) : ∃ k, s.walk l xs = .ok k ∧ s.walk k ys = .ok m := by
  induction xs generalizing l with
  | nil => exact ⟨l, rfl, h⟩
  | cons name names ih =>
      rw [List.cons_append, walk_cons_eq_ok_iff] at h
      obtain ⟨hdir, hrest⟩ := h
      simp only [walk_cons_eq_ok_iff, hdir, true_and]
      split at hrest
      · next hname =>
          simp only [hname, if_true]
          exact ih l hrest
      · next hname =>
          simp only [hname]
          split at hrest
          · next hdots =>
              simp only [hdots, if_true]
              exact ih _ hrest
          · next hdots =>
              simp only [hdots]
              split at hrest
              · exact nomatch hrest
              · next hlength =>
                  simp only [hlength]
                  exact ih _ hrest

theorem walk_append_eq_ok_iff (s : Store) (xs ys : List Text) (l m : Location) :
    s.walk l (xs ++ ys) = .ok m ↔ ∃ k, s.walk l xs = .ok k ∧ s.walk k ys = .ok m := by
  refine ⟨exists_of_walk_append_eq_ok s xs ys l m, ?_⟩
  rintro ⟨k, hk, hm⟩
  rw [walk_append_of_ok s xs ys l k hk, hm]

theorem walk_nil_eq_ok_iff (s : Store) (l m : Location) :
    s.walk l [[]] = .ok m ↔ s.IsDirectoryAt l ∧ l = m := by
  rw [walk_cons_eq_ok_iff]
  simp [walk]

theorem walk_entry_eq_ok_iff (s : Store) (l m : Location) (name : Text)
    (hname : Path.IsEntryName name) :
    s.walk l [name] = .ok m ↔
      s.IsDirectoryAt l ∧ Name.byteLength name ≤ nameLimit ∧ l ++ [name] = m := by
  rw [walk_cons_eq_ok_iff]
  by_cases hlength : nameLimit < Name.byteLength name
  · simp [hname.ne_nil, hname.ne_dot, hname.ne_dotDot, hlength, Nat.not_le.2 hlength]
  · simp [walk, hname.ne_nil, hname.ne_dot, hname.ne_dotDot, hlength, Nat.not_lt.1 hlength]

theorem checkPath_eq_ok_iff (path : Text) :
    checkPath path = .ok () ↔ ∀ c ∈ path, Name.isNameable c = true := by
  rw [← Name.check_eq_ok_iff, checkPath]
  cases Name.check path <;> simp [Except.mapError]

theorem locate_eq_ok_iff (s : Store) (here path : Text) (l : Location) :
    s.locate here path = .ok l ↔
      (∀ c ∈ path, Name.isNameable c = true) ∧ path ≠ [] ∧ Name.byteLength path ≤ pathLimit ∧
        s.walk (origin here path) (Text.split Path.slash path) = .ok l := by
  rw [← checkPath_eq_ok_iff, locate]
  cases hcheck : checkPath path with
  | error f => simp [bind, Except.bind]
  | ok u =>
      by_cases hnil : path = []
      · simp [bind, Except.bind, hnil]
      · by_cases hlength : pathLimit < Name.byteLength path
        · simp [bind, Except.bind, hnil, hlength, Nat.not_le.2 hlength]
        · cases hwalk : s.walk (origin here path) (Text.split Path.slash path) <;>
            simp [bind, Except.bind, hnil, hlength, Nat.not_lt.1 hlength]

/-- Where names lead, if they lead anywhere, the names alone tell. -/
theorem eq_of_walk_eq_ok (s : Store) (names : List Text) (l m : Location) (hl : Path.dotDot ∉ l)
    (h : s.walk l names = .ok m) :
    m = (names.foldl (Path.push true) l.reverse).reverse := by
  induction names generalizing l with
  | nil =>
      obtain rfl := Except.ok.inj h
      exact l.reverse_reverse.symm
  | cons name names ih =>
      obtain ⟨-, hrest⟩ := (walk_cons_eq_ok_iff _ _ _ _ _).1 h
      rw [List.foldl_cons]
      split at hrest
      · next hname =>
          rw [Path.push_same l.reverse name (by simpa using hname)]
          exact ih l hl hrest
      · next hname =>
          obtain ⟨hnil, hdot⟩ : name ≠ [] ∧ name ≠ Path.dot := by simpa using hname
          split at hrest
          · next hdots =>
              rw [hdots, Path.push_dotDot _ (by simpa using hl), List.tail_reverse]
              exact ih _ (fun hmem => hl (List.dropLast_subset l hmem)) hrest
          · next hdots =>
              split at hrest
              · exact nomatch hrest
              · rw [Path.push_of_ne _ name hnil hdot hdots, ← List.reverse_concat]
                refine ih _ ?_ hrest
                rw [List.mem_append, List.mem_singleton, not_or]
                exact ⟨hl, Ne.symm hdots⟩

/-- A path leads, if it leads anywhere, to the location that its absolute path names. -/
theorem eq_segments_of_locate (s : Store) (here path : Text) (l : Location)
    (hhere : Path.isAbsolute here = true) (h : s.locate here path = .ok l) :
    l = Path.segments (Path.join here path) := by
  obtain ⟨-, -, -, hwalk⟩ := (locate_eq_ok_iff _ _ _ _).1 h
  cases hpath : Path.isAbsolute path with
  | true =>
      rw [origin, if_pos hpath] at hwalk
      rw [Path.join, if_pos hpath, Path.segments, hpath]
      exact eq_of_walk_eq_ok s _ [] l List.not_mem_nil hwalk
  | false =>
      rw [origin, hpath, if_neg Bool.false_ne_true] at hwalk
      rw [Path.segments_join here path hhere hpath]
      refine eq_of_walk_eq_ok s _ _ l (fun hdots => ?_) hwalk
      exact (Path.isEntryName_of_mem_segments here hhere _ hdots).ne_dotDot rfl

theorem eq_segments_of_locate_of_isAbsolute (s : Store) (here path : Text) (l : Location)
    (hhere : Path.isAbsolute here = true) (hpath : Path.isAbsolute path = true)
    (h : s.locate here path = .ok l) : l = Path.segments path := by
  have hl := eq_segments_of_locate s here path l hhere h
  rwa [Path.join, if_pos hpath] at hl

theorem locate_of_directories (s s' : Store) (h : ∀ l, s.IsDirectoryAt l → s'.IsDirectoryAt l)
    (here path : Text) (l : Location) (hl : s.locate here path = .ok l) :
    s'.locate here path = .ok l := by
  rw [locate_eq_ok_iff] at hl ⊢
  obtain ⟨hnames, hnil, hlength, hwalk⟩ := hl
  exact ⟨hnames, hnil, hlength, walk_of_directories s s' h _ _ _ hwalk⟩

theorem segments_absolute_of_locate (s : Store) (here dir name : Text) (l : Location)
    (hhere : Path.isAbsolute here = true) (hdir : dir ≠ []) (hname : Path.IsEntryName name)
    (hl : s.locate here (Path.join dir name) = .ok l) :
    Path.segments (Path.absolute here (Path.join dir name)) = l := by
  obtain ⟨k, above, habove, hsegments, habsolute⟩ :=
    Path.exists_absolute_join_eq_rooted here dir name hhere hdir hname
  rw [habsolute, Path.segments_rooted k _ (List.forall_mem_append.2
      ⟨habove, List.forall_mem_singleton.2 hname⟩),
    s.eq_segments_of_locate here _ l hhere hl, hsegments]

theorem origin_join (here dir name : Text) (hdir : dir ≠ []) (hname : Path.slash ∉ name) :
    origin here (Path.join dir name) = origin here dir := by
  rw [origin, origin, Path.isAbsolute_join dir name hdir hname]

theorem exists_of_locate_join (s : Store) (here dir name : Text) (l : Location) (hdir : dir ≠ [])
    (hname : Path.IsEntryName name) (h : s.locate here (Path.join dir name) = .ok l) :
    ∃ parent, l = parent ++ [name] ∧ s.locate here dir = .ok parent ∧ s.IsDirectoryAt parent ∧
      Name.byteLength name ≤ nameLimit := by
  obtain ⟨hnames, -, hlength, hwalk⟩ := (locate_eq_ok_iff _ _ _ _).1 h
  obtain ⟨above, hsplit, habove⟩ := Path.exists_split_join dir name hdir hname.slash_not_mem
  rw [origin_join here dir name hdir hname.slash_not_mem, hsplit] at hwalk
  obtain ⟨parent, hparent, hlast⟩ := exists_of_walk_append_eq_ok _ _ _ _ _ hwalk
  obtain ⟨hat, hshort, rfl⟩ := (walk_entry_eq_ok_iff s parent l name hname).1 hlast
  refine ⟨parent, rfl, (locate_eq_ok_iff _ _ _ _).2 ⟨?_, hdir, ?_, ?_⟩, hat, hshort⟩
  · intro c hc
    exact hnames c ((Path.mem_join_iff dir name hdir hname.slash_not_mem c).2 (.inl hc))
  · have := (Path.byteLength_join dir name hdir hname.slash_not_mem).1
    omega
  · rcases habove with habove | habove
    · rw [habove]
      exact hparent
    · rw [habove, walk_append_of_ok s above [[]] _ parent hparent, walk_nil_eq_ok_iff]
      exact ⟨hat, rfl⟩

theorem locate_join (s : Store) (here dir name : Text) (parent : Location)
    (hname : Path.IsEntryName name) (hnameable : ∀ c ∈ name, Name.isNameable c = true)
    (hshort : Name.byteLength name ≤ nameLimit)
    (hlength : Name.byteLength (Path.join dir name) ≤ pathLimit)
    (hparent : s.locate here dir = .ok parent) (hat : s.IsDirectoryAt parent) :
    s.locate here (Path.join dir name) = .ok (parent ++ [name]) := by
  obtain ⟨hnames, hdir, -, hwalk⟩ := (locate_eq_ok_iff _ _ _ _).1 hparent
  obtain ⟨above, hsplit, habove⟩ := Path.exists_split_join dir name hdir hname.slash_not_mem
  have hwalk' : s.walk (origin here dir) above = .ok parent := by
    rcases habove with habove | habove
    · rw [← habove]
      exact hwalk
    · rw [habove] at hwalk
      obtain ⟨k, hk, hlast⟩ := exists_of_walk_append_eq_ok _ _ _ _ _ hwalk
      obtain ⟨-, rfl⟩ := (walk_nil_eq_ok_iff s k parent).1 hlast
      exact hk
  refine (locate_eq_ok_iff _ _ _ _).2
    ⟨?_, Path.join_ne_nil dir name hdir hname.slash_not_mem, hlength, ?_⟩
  · intro c hc
    rcases (Path.mem_join_iff dir name hdir hname.slash_not_mem c).1 hc with hc | rfl | hc
    · exact hnames c hc
    · decide
    · exact hnameable c hc
  · rw [origin_join here dir name hdir hname.slash_not_mem, hsplit,
      walk_append_of_ok s above [name] _ parent hwalk', walk_entry_eq_ok_iff _ _ _ _ hname]
    exact ⟨hat, hshort, rfl⟩

theorem entry_eq_ok_iff (s : Store) (here path : Text) (l : Location) (e : Entry) :
    s.entry here path = .ok (l, e) ↔ s.locate here path = .ok l ∧ s.get? l = some e := by
  rw [entry]
  cases hl : s.locate here path with
  | error f => simp [bind, Except.bind]
  | ok k =>
      cases he : s.get? k with
      | none =>
          simp only [bind, Except.bind, he]
          constructor
          · exact fun h => (nomatch h)
          · rintro ⟨hk, hl⟩
            rw [Except.ok.inj hk, hl] at he
            exact nomatch he
      | some f =>
          simp only [bind, Except.bind, he, Except.ok.injEq, Prod.mk.injEq]
          constructor
          · rintro ⟨rfl, rfl⟩
            exact ⟨rfl, he⟩
          · rintro ⟨rfl, hf⟩
            exact ⟨rfl, Option.some.inj (he.symm.trans hf)⟩

theorem isDirectory_iff (s : Store) (here path : Text) :
    s.isDirectory here path = true ↔ ∃ l, s.locate here path = .ok l ∧ s.IsDirectoryAt l := by
  rw [isDirectory]
  constructor
  · intro h
    split at h
    · next l mode he =>
        obtain ⟨hl, hdir⟩ := (entry_eq_ok_iff _ _ _ _ _).1 he
        exact ⟨l, hl, mode, hdir⟩
    · exact nomatch h
  · rintro ⟨l, hl, mode, hdir⟩
    rw [(entry_eq_ok_iff s here path l _).2 ⟨hl, hdir⟩]

theorem isFile_iff (s : Store) (here path : Text) :
    s.isFile here path = true ↔
      ∃ l bytes mode, s.locate here path = .ok l ∧ s.get? l = some (.file bytes mode) := by
  rw [isFile]
  constructor
  · intro h
    split at h
    · next l bytes mode he => exact ⟨l, bytes, mode, (entry_eq_ok_iff _ _ _ _ _).1 he⟩
    · exact nomatch h
  · rintro ⟨l, bytes, mode, he⟩
    rw [(entry_eq_ok_iff s here path l _).2 he]

theorem content_eq_ok_iff (s : Store) (here path : Text) (bytes : Bytes) :
    s.content here path = .ok bytes ↔
      ∃ l mode, s.locate here path = .ok l ∧ s.get? l = some (.file bytes mode) := by
  rw [content]
  constructor
  · intro h
    cases he : s.entry here path with
    | error f =>
        rw [he] at h
        exact nomatch h
    | ok le =>
        obtain ⟨l, e⟩ := le
        rw [he] at h
        cases e with
        | file b mode =>
            obtain rfl := Except.ok.inj h
            exact ⟨l, mode, (entry_eq_ok_iff _ _ _ _ _).1 he⟩
        | directory mode => exact nomatch h
  · rintro ⟨l, mode, he⟩
    rw [(entry_eq_ok_iff s here path l _).2 he]
    rfl

theorem content?_eq_some_iff (s : Store) (here path : Text) (bytes : Bytes) :
    s.content? here path = some bytes ↔
      ∃ l mode, s.locate here path = .ok l ∧ s.get? l = some (.file bytes mode) := by
  rw [content?]
  constructor
  · intro h
    split at h
    · next l b mode he =>
        obtain rfl := Option.some.inj h
        exact ⟨l, mode, (entry_eq_ok_iff _ _ _ _ _).1 he⟩
    · exact nomatch h
  · rintro ⟨l, mode, he⟩
    rw [(entry_eq_ok_iff s here path l _).2 he]

theorem content?_eq_none_iff_isFile (s : Store) (here path : Text) :
    s.content? here path = none ↔ s.isFile here path = false := by
  rw [content?, isFile]
  rcases s.entry here path with f | ⟨l, ⟨bytes, mode⟩ | mode⟩ <;> simp

theorem names_eq_ok_iff (s : Store) (here path : Text) (ns : List Text) :
    s.names here path = .ok ns ↔
      ∃ l, s.locate here path = .ok l ∧ s.IsDirectoryAt l ∧ ns = s.children l := by
  rw [names]
  constructor
  · intro h
    cases he : s.entry here path with
    | error f =>
        rw [he] at h
        exact nomatch h
    | ok le =>
        obtain ⟨l, e⟩ := le
        rw [he] at h
        obtain ⟨hl, hget⟩ := (entry_eq_ok_iff _ _ _ _ _).1 he
        cases e with
        | file b mode => exact nomatch h
        | directory mode => exact ⟨l, hl, ⟨mode, hget⟩, (Except.ok.inj h).symm⟩
  · rintro ⟨l, hl, ⟨mode, hget⟩, rfl⟩
    rw [(entry_eq_ok_iff s here path l _).2 ⟨hl, hget⟩]
    rfl

end Store

end LocaleKeys
