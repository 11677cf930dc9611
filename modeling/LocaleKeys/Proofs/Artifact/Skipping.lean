import LocaleKeys.Proofs.Artifact.Sequence
import LocaleKeys.Proofs.Run.Emission
import LocaleKeys.Proofs.Run.Outcome

/-!
# Skipping files that hold the right bytes already

Whether files that hold the right bytes are written again makes no difference to what writing gives
and to what it leaves of the files (`skipping_agrees`). Writing the bytes of a file to it changes
nothing, because the new file has the mode of the old one (`replace_eq_self_of_content?`). But who
skips files reads them, and who does not needs a place for the temporary file. These are the only
ways to part: a file may be neither read nor skipped, or skipped but not written again
(`partsAll_writeAll`). Artifacts may lead to one file: then what is there when the later one comes
is what the earlier one has left.
-/

namespace LocaleKeys

namespace Store

theorem isDirectoryAt_dropLast (s : Store) (hs : s.IsTree) (l : Location) (h : s.IsDirectoryAt l) :
    s.IsDirectoryAt l.dropLast := by
  rcases List.eq_nil_or_concat l with rfl | ⟨parent, name, rfl⟩
  · exact s.isDirectoryAt_nil
  · rw [List.concat_eq_append] at h ⊢
    obtain ⟨m, hm⟩ := h
    rw [List.dropLast_concat]
    exact (hs parent name _ hm).2

theorem isEntryName_base_of_get?_eq_file (s : Store) (hs : s.IsTree) (here path : Text)
    (l : Location) (bytes : Bytes) (mode : Mode) (hl : s.locate here path = .ok l)
    (hget : s.get? l = some (.file bytes mode)) : Path.IsEntryName (Path.base path) := by
  obtain ⟨above, hsplit⟩ := Path.exists_split_eq_append_base path
  obtain ⟨-, -, -, hwalk⟩ := (locate_eq_ok_iff _ _ _ _).1 hl
  rw [hsplit] at hwalk
  obtain ⟨k, -, hlast⟩ := exists_of_walk_append_eq_ok _ _ _ _ _ hwalk
  have hfile := not_isDirectoryAt_of_get?_eq_file s l bytes mode hget
  obtain ⟨hat, hlast⟩ := (walk_cons_eq_ok_iff s k l _ _).1 hlast
  -- Whatever else the last name may be, it leads to a directory.
  refine ⟨fun hnil => ?_, fun hdot => ?_, fun hdots => ?_, Path.slash_not_mem_base path⟩
  · rw [hnil, List.isEmpty_nil, Bool.true_or, if_pos rfl] at hlast
    exact hfile (Except.ok.inj hlast ▸ hat)
  · rw [hdot, decide_eq_true rfl, Bool.or_true, if_pos rfl] at hlast
    exact hfile (Except.ok.inj hlast ▸ hat)
  · rw [hdots, if_neg (by decide), if_pos rfl] at hlast
    exact hfile (Except.ok.inj hlast ▸ isDirectoryAt_dropLast s hs k hat)

/-- Writing the bytes of a file to it changes nothing. -/
theorem replace_eq_self_of_content? (s : Store) (hs : s.IsTree) (mask : Mode) (here path : Text)
    (data : Bytes) (hhere : Path.isAbsolute here = true) (hplace : s.HasTemporaryPlace here path)
    (hcontent : s.content? here path = some data) :
    s.replace .none mask here path data = (.ok (), s) := by
  obtain ⟨l, mode, hl, hget⟩ := (content?_eq_some_iff _ _ _ _).1 hcontent
  have hmode : s.modeUnder mask here path = mode := by
    rw [modeUnder_eq_of_locate s mask here path l hl, hget]
    rfl
  rw [replace_of_hasTemporaryPlace s mask here path data hhere l
    (isEntryName_base_of_get?_eq_file s hs here path l data mode hl hget) hplace hl
    (not_isDirectoryAt_of_get?_eq_file s l data mode hget), hmode,
    set_eq_self s l _ (ne_nil_of_get?_eq_file s l data mode hget) hget]

theorem isTree_of_replace_eq_ok (s s' : Store) (hs : s.IsTree) (refusals : Refusals) (mask : Mode)
    (here path : Text) (data : Bytes) (hhere : Path.isAbsolute here = true)
    (h : s.replace refusals mask here path data = (.ok (), s')) : s'.IsTree := by
  obtain ⟨-, -, hbase, parent, -, hparent, hfile, rfl⟩ :=
    setsFile_of_replace_eq_ok _ _ _ _ _ _ _ hhere h
  exact isTree_set_file s parent _ data _ hs hbase hparent hfile

end Store

namespace Artifact

/-- Whether writing artifacts succeeds up to one of them, and fails at that one. -/
def FailsAt (host : Host) (directory : Text) (skip : Bool) (s : Store) (done : List Artifact)
    (a : Artifact) (e : Failure) : Prop :=
  ∃ paths s₁ s₂, (writeAll host directory skip done).outcome s = (.ok paths, s₁) ∧
    (write host directory skip a).outcome s₁ = (.error e, s₂)

/-- Whether there is a place for the temporary file of each artifact that leads to a file when its
turn comes. -/
def LeavesRoom (host : Host) (directory : Text) (as : List Artifact) (s : Store) : Prop :=
  ∀ done a rest paths s', as = done ++ a :: rest →
    (writeAll host directory false done).outcome s = (.ok paths, s') →
    s'.isFile host.here (Path.join directory a.name) = true →
    s'.HasTemporaryPlace host.here (Path.join directory a.name)

/-- How writing an artifact with its file skipped and writing it anew go apart, if they do: a file
that may not be read is not skipped, and one that is skipped may not be replaced. -/
inductive Parts (host : Host) (directory : Text) (s : Store) (a : Artifact) :
    Except Failure Text × Store → Except Failure Text × Store → Prop
  | same (outcome : Except Failure Text × Store) : Parts host directory s a outcome outcome
  | unread (f : StoreFault) (anew : Except Failure Text × Store)
      (hread : host.content? (Path.join directory a.name) s = .error f) :
      Parts host directory s a (.error (.ofStore f), s) anew
  | refused (data : Bytes) (f : StoreFault) (path : Text)
      (hheld : a.IsHeld .keep host.here directory s)
      (hreplace : host.replace (Path.join directory a.name) data s = (.error f, s))
      (hcannot : ¬ (s.HasTemporaryPlace host.here (Path.join directory a.name) ∧
        host.refusals (Path.join directory a.name) = .none)) :
      Parts host directory s a (.ok path, s) (.error (.ofStore f), s)

/-- The same for artifacts that are written in order: they go apart at one of them. -/
inductive PartsAll (host : Host) (directory : Text) (as : List Artifact) (s : Store) :
    Except Failure (List Text) × Store → Except Failure (List Text) × Store → Prop
  | same (outcome : Except Failure (List Text) × Store) :
      PartsAll host directory as s outcome outcome
  | unread (done rest : List Artifact) (a : Artifact) (paths : List Text) (s' : Store)
      (f : StoreFault) (anew : Except Failure (List Text) × Store) (has : as = done ++ a :: rest)
      (hdone : (writeAll host directory false done).outcome s = (.ok paths, s'))
      (hread : host.content? (Path.join directory a.name) s' = .error f) :
      PartsAll host directory as s (.error (.ofStore f), s') anew
  | refused (done rest : List Artifact) (a : Artifact) (paths : List Text) (s' : Store)
      (data : Bytes) (f : StoreFault) (skipping : Except Failure (List Text) × Store)
      (has : as = done ++ a :: rest)
      (hdone : (writeAll host directory false done).outcome s = (.ok paths, s'))
      (hheld : a.IsHeld .keep host.here directory s')
      (hreplace : host.replace (Path.join directory a.name) data s' = (.error f, s'))
      (hcannot : ¬ (s'.HasTemporaryPlace host.here (Path.join directory a.name) ∧
        host.refusals (Path.join directory a.name) = .none)) :
      PartsAll host directory as s skipping (.error (.ofStore f), s')

theorem IsHeld.isFile {f : Formatting} {here directory : Text} {s : Store} {a : Artifact}
    (h : a.IsHeld f here directory s) : s.isFile here (Path.join directory a.name) = true := by
  obtain ⟨data, -, hcontent⟩ := h
  obtain ⟨l, mode, hl, hget⟩ := (Store.content?_eq_some_iff _ _ _ _).1 hcontent
  exact (Store.isFile_iff _ _ _).2 ⟨l, _, mode, hl, hget⟩

section Outcome

variable (host : Host) (directory : Text) (skip : Bool)

theorem outcome_write_of_encode_error (a : Artifact) (f : Utf8.EncodeFault) (s : Store)
    (h : a.encode = .error f) :
    (write host directory skip a).outcome s = (.error (.encoding f), s) := by
  rw [Action.outcome, runOn_write_of_encode_error host directory skip a f _ h]

theorem outcome_write_anew (a : Artifact) (data : Bytes) (s : Store) (hdata : a.encode = .ok data) :
    (write host directory false a).outcome s =
      match host.replace (Path.join directory a.name) data s with
      | (.ok (), s') => (.ok (Path.absolute host.here (Path.join directory a.name)), s')
      | (.error f, s') => (.error (.ofStore f), s') := by
  rw [Action.outcome]
  rcases hreplace : host.replace (Path.join directory a.name) data s with ⟨f | u, s'⟩
  · have hput := runOn_put_of_replace_error host _ data { store := s } s' f hreplace
    rw [runOn_write_of_held host directory false a data none _ hdata rfl, writeOver,
      if_neg (Option.some_ne_none data).symm,
      Action.runOn_bind_of_error _ _ _ _ _ (Action.runOn_bind_of_error _ _ _ _ _ hput)]
  · have hput := runOn_put_of_replace host _ data { store := s } s' hreplace
    obtain ⟨w, hrun, hstore⟩ := exists_runOn_write_of_put host directory a data _ _ hdata hput
    rw [hrun, hstore]

theorem outcome_write_of_not_held (a : Artifact) (data : Bytes) (held : Option Bytes) (s : Store)
    (hdata : a.encode = .ok data)
    (hheld : host.content? (Path.join directory a.name) s = .ok held) (hne : held ≠ some data) :
    (write host directory true a).outcome s = (write host directory false a).outcome s := by
  rw [Action.outcome, Action.outcome,
    runOn_write_of_held host directory true a data held { store := s } hdata hheld,
    runOn_write_of_held host directory false a data none { store := s } hdata rfl, writeOver,
    writeOver, if_neg hne, if_neg (Option.some_ne_none data).symm]

theorem outcome_writeAll_cons (a : Artifact) (as : List Artifact) (s : Store) :
    (writeAll host directory skip (a :: as)).outcome s =
      match (write host directory skip a).outcome s with
      | (.ok path, s') =>
          match (writeAll host directory skip as).outcome s' with
          | (.ok paths, s'') => (.ok (path :: paths), s'')
          | (.error e, s'') => (.error e, s'')
      | (.error e, s') => (.error e, s') := by
  rw [writeAll, Action.outcome_bind _ _ fun path =>
    (followsFiles_writeAll host directory skip as).bind fun paths =>
      (Action.reads_pure (path :: paths)).followsFiles]
  rcases (write host directory skip a).outcome s with ⟨e | path, s'⟩
  · rfl
  · dsimp only
    rw [Action.outcome_bind _ _ fun paths => (Action.reads_pure (path :: paths)).followsFiles]
    rcases (writeAll host directory skip as).outcome s' with ⟨e | paths, s''⟩ <;> rfl

end Outcome

section Agreement

variable {host : Host} {directory : Text}

theorem LeavesRoom.of_append {done rest : List Artifact} {s : Store}
    (h : LeavesRoom host directory (done ++ rest) s) : LeavesRoom host directory done s := by
  intro before b after paths s' hdone
  refine h before b (after ++ rest) paths s' ?_
  rw [hdone, List.append_assoc, List.cons_append]

variable (hhere : Path.isAbsolute host.here = true)
include hhere

/-- Where artifacts are written, only the entries with their names are different afterwards. -/
theorem agreesBut_of_outcome_writeAll_eq_ok (hdir : directory ≠ []) (as : List Artifact)
    (hnames : ∀ a ∈ as, Path.IsEntryName a.name) (paths : List Text) (s s' : Store)
    (h : (writeAll host directory false as).outcome s = (.ok paths, s')) :
    Store.AgreesBut (as.map Artifact.name) s s' := by
  obtain ⟨hpaths, rfl⟩ := Prod.mk.inj h
  exact (laid_of_writeAll_eq_ok host directory false hhere as paths { store := s } _
    (Prod.ext hpaths rfl)).2.agreesBut hdir hnames

/-- If the artifacts have the names of entries that are not hidden, there is room for each of them
in the course of the writing if there is room for each of them before it. -/
theorem leavesRoom_of_isPlain (hdir : directory ≠ []) (as : List Artifact) (s : Store)
    (hnames : ∀ a ∈ as, IsPlain a.name)
    (hplaces : ∀ a ∈ as, s.HasTemporaryPlace host.here (Path.join directory a.name)) :
    LeavesRoom host directory as s := by
  intro done a rest paths s' has hdone _
  subst has
  have ha : a ∈ done ++ a :: rest := List.mem_append_right _ List.mem_cons_self
  have hdoneNames := fun b hb => hnames b (List.mem_append_left _ hb)
  refine (hplaces a ha).congr s _ (done.map Artifact.name) host.here directory a.name hhere hdir
    (hnames a ha).isEntryName.slash_not_mem ?_
    (agreesBut_of_outcome_writeAll_eq_ok hhere hdir done (fun b hb => (hdoneNames b hb).isEntryName)
      paths s s' hdone)
  exact List.forall_mem_map.2 fun b hb => (hdoneNames b hb).head?_ne

theorem isTree_of_outcome_write_eq_ok (a : Artifact) (s s' : Store) (path : Text) (hs : s.IsTree)
    (h : (write host directory false a).outcome s = (.ok path, s')) : s'.IsTree := by
  cases hdata : a.encode with
  | error f =>
      rw [outcome_write_of_encode_error host directory false a f s hdata] at h
      exact nomatch (Prod.mk.inj h).1
  | ok data =>
      rw [outcome_write_anew host directory a data s hdata] at h
      split at h
      · next s₁ hreplace =>
          rw [← (Prod.mk.inj h).2]
          exact Store.isTree_of_replace_eq_ok _ _ hs _ _ _ _ _ hhere hreplace
      · exact nomatch (Prod.mk.inj h).1

theorem isTree_of_outcome_writeAll_eq_ok (as : List Artifact) (s s' : Store) (paths : List Text)
    (hs : s.IsTree) (h : (writeAll host directory false as).outcome s = (.ok paths, s')) :
    s'.IsTree := by
  induction as generalizing s paths with
  | nil => rwa [← (Prod.mk.inj h).2]
  | cons a as ih =>
      rw [outcome_writeAll_cons] at h
      rcases hwrite : (write host directory false a).outcome s with ⟨e | path, s₁⟩
      · rw [hwrite] at h
        exact nomatch (Prod.mk.inj h).1
      · rw [hwrite] at h
        rcases hrest : (writeAll host directory false as).outcome s₁ with ⟨e | rest, s₂⟩
        · simp only [hrest] at h
          exact nomatch (Prod.mk.inj h).1
        · simp only [hrest] at h
          obtain rfl := (Prod.mk.inj h).2
          exact ih s₁ rest (isTree_of_outcome_write_eq_ok hhere a s s₁ path hs hwrite) hrest

variable (directory) in
theorem parts_write (a : Artifact) (s : Store) (hs : s.IsTree) :
    Parts host directory s a ((write host directory true a).outcome s)
      ((write host directory false a).outcome s) := by
  cases hdata : a.encode with
  | error f =>
      rw [outcome_write_of_encode_error host directory true a f s hdata,
        outcome_write_of_encode_error host directory false a f s hdata]
      exact .same _
  | ok data =>
      cases hread : host.content? (Path.join directory a.name) s with
      | error f =>
          rw [Action.outcome, runOn_write_of_unread host directory a data f _ hdata hread]
          exact .unread f _ hread
      | ok held =>
          by_cases hheld : held = some data
          · subst hheld
            obtain ⟨w, hrun, hstore⟩ :=
              exists_runOn_write_of_content? host directory a data { store := s } hdata hread
            obtain ⟨-, hcontent⟩ := (host.content?_eq_ok_some_iff _ _ _).1 hread
            rw [Action.outcome, hrun, outcome_write_anew host directory a data s hdata, hstore]
            by_cases hcan : s.HasTemporaryPlace host.here (Path.join directory a.name) ∧
                host.refusals (Path.join directory a.name) = .none
            · rw [Host.replace, hcan.2, Store.replace_eq_self_of_content? s hs _ _ _ data hhere
                hcan.1 hcontent]
              exact .same _
            · rcases hreplace : host.replace (Path.join directory a.name) data s with ⟨f | u, s'⟩
              · obtain rfl := Store.eq_of_replace_eq_error _ _ _ _ _ _ _ hhere f hreplace
                exact .refused data f _ ⟨data, hdata, hcontent⟩ hreplace hcan
              · obtain ⟨hallowed, hplace, -⟩ :=
                  Store.setsFile_of_replace_eq_ok _ _ _ _ _ _ _ hhere hreplace
                exact absurd ⟨hplace, hallowed⟩ hcan
          · rw [outcome_write_of_not_held host directory a data held s hdata hread hheld]
            exact .same _

variable (directory) in
/-- Writing artifacts with files skipped and writing them anew go on alike up to the artifact at
which they part. -/
theorem partsAll_writeAll (as : List Artifact) (s : Store) (hs : s.IsTree) :
    PartsAll host directory as s ((writeAll host directory true as).outcome s)
      ((writeAll host directory false as).outcome s) := by
  induction as generalizing s with
  | nil => exact .same _
  | cons a as ih =>
      rw [outcome_writeAll_cons, outcome_writeAll_cons]
      have hparts := parts_write directory hhere a s hs
      generalize hskip : (write host directory true a).outcome s = skipping at hparts
      generalize hanew : (write host directory false a).outcome s = anew at hparts
      cases hparts with
      | same =>
          obtain ⟨e | path, s₁⟩ := skipping
          · exact .same _
          · dsimp only
            have hrest := ih s₁ (isTree_of_outcome_write_eq_ok hhere a s s₁ path hs hanew)
            generalize (writeAll host directory true as).outcome s₁ = skippingRest at hrest
            generalize (writeAll host directory false as).outcome s₁ = anewRest at hrest
            have hfirst : ∀ done paths s',
                (writeAll host directory false done).outcome s₁ = (.ok paths, s') →
                (writeAll host directory false (a :: done)).outcome s =
                  (.ok (path :: paths), s') := by
              intro done paths s' hdone
              rw [outcome_writeAll_cons, hanew]
              simp only [hdone]
            cases hrest with
            | same => exact .same _
            | unread done rest b paths s' f anew has hdone hread =>
                exact .unread (a :: done) rest b (path :: paths) s' f _ (congrArg (a :: ·) has)
                  (hfirst done paths s' hdone) hread
            | refused done rest b paths s' data f skipping has hdone hheld hreplace hcannot =>
                exact .refused (a :: done) rest b (path :: paths) s' data f _
                  (congrArg (a :: ·) has) (hfirst done paths s' hdone) hheld hreplace hcannot
      | unread f anew hread => exact .unread [] as a [] s f _ rfl rfl hread
      | refused data f path hheld hreplace hcannot =>
          exact .refused [] as a [] s data f _ rfl rfl hheld hreplace hcannot

variable (hpermissive : host.Permissive)
include hpermissive

/-- Whether a file is written again makes no difference if nothing is refused from outside and the
temporary file has a place. -/
theorem outcome_write_skipping (a : Artifact) (s : Store) (hs : s.IsTree)
    (hroom : s.isFile host.here (Path.join directory a.name) = true →
      s.HasTemporaryPlace host.here (Path.join directory a.name)) :
    (write host directory true a).outcome s = (write host directory false a).outcome s := by
  have hparts := parts_write directory hhere a s hs
  generalize (write host directory true a).outcome s = skipping at hparts ⊢
  generalize (write host directory false a).outcome s = anew at hparts ⊢
  cases hparts with
  | same => rfl
  | unread f anew hread =>
      rw [host.content?_of_readRefusal_eq_none _ _ (hpermissive.readRefusal _)] at hread
      cases hread
  | refused data f path hheld hreplace hcannot =>
      exact absurd ⟨hroom hheld.isFile, hpermissive.refusals _⟩ hcannot

theorem outcome_writeAll_skipping (as : List Artifact) (s : Store) (hs : s.IsTree)
    (hroom : LeavesRoom host directory as s) :
    (writeAll host directory true as).outcome s = (writeAll host directory false as).outcome s := by
  have hparts := partsAll_writeAll directory hhere as s hs
  generalize (writeAll host directory true as).outcome s = skipping at hparts ⊢
  generalize (writeAll host directory false as).outcome s = anew at hparts ⊢
  cases hparts with
  | same => rfl
  | unread done rest a paths s' f anew has hdone hread =>
      rw [host.content?_of_readRefusal_eq_none _ _ (hpermissive.readRefusal _)] at hread
      cases hread
  | refused done rest a paths s' data f skipping has hdone hheld hreplace hcannot =>
      exact absurd ⟨hroom done a rest paths s' has hdone hheld.isFile, hpermissive.refusals _⟩
        hcannot

/-- If there are no refusals from outside and the temporary files have room, writing gives the same
and leaves the same files whether files with the right bytes are skipped or not; and if it fails, it
fails at the same artifact. -/
theorem skipping_agrees (as : List Artifact) (w : Workspace) (hs : w.store.IsTree)
    (hroom : LeavesRoom host directory as w.store) :
    ((writeAll host directory true as).runOn w).1 =
        ((writeAll host directory false as).runOn w).1 ∧
      ((writeAll host directory true as).runOn w).2.store =
        ((writeAll host directory false as).runOn w).2.store ∧
      ∀ e, ((writeAll host directory true as).runOn w).1 = .error e →
        ∃ done a rest, as = done ++ a :: rest ∧
          FailsAt host directory true w.store done a e ∧
          FailsAt host directory false w.store done a e := by
  have hsame := outcome_writeAll_skipping hhere hpermissive as w.store hs hroom
  rw [← followsFiles_writeAll host directory true as w,
    ← followsFiles_writeAll host directory false as w] at hsame
  refine ⟨(Prod.mk.inj hsame).1, (Prod.mk.inj hsame).2, fun e he => ?_⟩
  obtain ⟨done, a, rest, paths, w₁, rfl, hdone, hstop⟩ :=
    exists_of_writeAll_eq_error host directory true as w _ e (Prod.ext he rfl)
  have hdone := (followsFiles_writeAll host directory true done).outcome_eq _ _ _ hdone
  have hstop := (followsFiles_write host directory true a).outcome_eq _ _ _ hstop
  refine ⟨done, a, rest, rfl, ⟨paths, _, _, hdone, hstop⟩, ?_⟩
  rw [outcome_writeAll_skipping hhere hpermissive done w.store hs hroom.of_append] at hdone
  rw [outcome_write_skipping hhere hpermissive a _
    (isTree_of_outcome_writeAll_eq_ok hhere done _ _ paths hs hdone)
    (hroom done a rest paths _ rfl hdone)] at hstop
  exact ⟨paths, _, _, hdone, hstop⟩

end Agreement

/-- The second of three artifacts of one name is skipped, and writing it again changes nothing. -/
theorem skipping_agrees_repeated :
    ∃ paths w w', (writeAll bareHost "out" true (⟨"x", "1"⟩ :: repeatedArtifacts)).runOn
        Run.nestedWorkspace = (.ok paths, w) ∧
      (writeAll bareHost "out" false (⟨"x", "1"⟩ :: repeatedArtifacts)).runOn
        Run.nestedWorkspace = (.ok paths, w') ∧
      w.store = w'.store ∧ w.journal.map Record.severity = [.info, .debug, .info] := by
  have hroom : LeavesRoom bareHost "out" (⟨"x", "1"⟩ :: repeatedArtifacts)
      Run.nestedWorkspace.store :=
    leavesRoom_of_isPlain rfl (by decide) _ _
      (fun a ha => ⟨by revert a; decide, by revert a; decide⟩) (by decide +kernel)
  obtain ⟨hresult, hstore, -⟩ := skipping_agrees rfl ⟨fun _ => rfl, fun _ => rfl⟩
    (⟨"x", "1"⟩ :: repeatedArtifacts) Run.nestedWorkspace Run.isTree_nestedWorkspace hroom
  have hlength : ((writeAll bareHost "out" true (⟨"x", "1"⟩ :: repeatedArtifacts)).runOn
      Run.nestedWorkspace).1.toOption.map List.length = some 3 := by decide +kernel
  have hjournal : ((writeAll bareHost "out" true (⟨"x", "1"⟩ :: repeatedArtifacts)).runOn
      Run.nestedWorkspace).2.journal.map Record.severity = [.info, .debug, .info] := by
    decide +kernel
  generalize (writeAll bareHost "out" true (⟨"x", "1"⟩ :: repeatedArtifacts)).runOn
    Run.nestedWorkspace = skipped at hresult hstore hlength hjournal ⊢
  generalize (writeAll bareHost "out" false (⟨"x", "1"⟩ :: repeatedArtifacts)).runOn
    Run.nestedWorkspace = plain at hresult hstore ⊢
  obtain ⟨result, w⟩ := skipped
  obtain ⟨result', w'⟩ := plain
  obtain rfl : result = result' := hresult
  obtain ⟨paths, rfl, -⟩ := exists_of_map_toOption_eq_some List.length result 3 hlength
  exact ⟨paths, w, w', rfl, rfl, hstore, hjournal⟩

end Artifact

end LocaleKeys
