import LocaleKeys.Artifact.Writing
import LocaleKeys.Proofs.Run.Action
import LocaleKeys.Proofs.Run.Host
import LocaleKeys.Proofs.Store.Atomicity
import LocaleKeys.Proofs.Store.Formatting

/-!
# What writing artifacts does

Writing an artifact sets one file, also when the file holds the right bytes already and is not
touched (`exists_of_write_eq_ok`). Writing a list of artifacts is a sequence of such steps
(`Written`). A failure leaves a beginning of the artifacts written (`stopped_of_writeAll_eq_error`).
Writing succeeds if every artifact can be written (`exists_runOn_writeAll`), or if every file holds
its bytes already and need not be written (`exists_runOn_writeAll_of_isHeld`).
-/

namespace LocaleKeys

namespace Artifact

/-- Whether one store is another one with artifacts written to a directory, one after the other. -/
inductive Written (mask : Mode) (here directory : Text) : List Artifact → Store → Store → Prop
  | nil (s : Store) : Written mask here directory [] s s
  | cons (a : Artifact) (as : List Artifact) (s s' : Store) (parent : Location) (data : Bytes)
      (hdata : a.encode = .ok data)
      (hlocate : s.locate here (Path.join directory a.name) = .ok (parent ++ [a.name]))
      (hparent : s.IsDirectoryAt parent) (hfile : ¬ s.IsDirectoryAt (parent ++ [a.name]))
      (hrest : Written mask here directory as
        (s.set (parent ++ [a.name])
          (.file data (s.modeUnder mask here (Path.join directory a.name)))) s') :
      Written mask here directory (a :: as) s s'

/-- Why an artifact is not written to a directory: it cannot be encoded, the file with which it is
to be compared cannot be read, or this file cannot be replaced. -/
inductive Hindrance (host : Host) (directory : Text) (skip : Bool) (s : Store) (a : Artifact) :
    Failure → Prop
  | unencoded (f : Utf8.EncodeFault) (hencode : a.encode = .error f) :
      Hindrance host directory skip s a (.encoding f)
  | unread (data : Bytes) (f : StoreFault) (hencode : a.encode = .ok data) (hskip : skip = true)
      (hread : host.content? (Path.join directory a.name) s = .error f) :
      Hindrance host directory skip s a (.ofStore f)
  | refused (data : Bytes) (f : StoreFault) (hencode : a.encode = .ok data)
      (hreplace : host.replace (Path.join directory a.name) data s = (.error f, s)) :
      Hindrance host directory skip s a (.ofStore f)

/-- Whether writing artifacts to a directory stops with a failure: those before one of them are
written, and that one is hindered. -/
def Stopped (host : Host) (directory : Text) (skip : Bool) (as : List Artifact) (s s' : Store)
    (e : Failure) : Prop :=
  ∃ done a rest, as = done ++ a :: rest ∧ Written host.umask host.here directory done s s' ∧
    Hindrance host directory skip s' a e

/-- Whether an artifact can be written to a directory: its file can be replaced by its bytes. -/
structure CanWrite (here directory : Text) (s : Store) (a : Artifact) : Prop where
  exists_encode : ∃ data, a.encode = .ok data
  exists_locate : ∃ parent, s.locate here (Path.join directory a.name) = .ok (parent ++ [a.name]) ∧
    ¬ s.IsDirectoryAt (parent ++ [a.name])
  hasTemporaryPlace : s.HasTemporaryPlace here (Path.join directory a.name)

/-- Whether the file of an artifact holds its bytes, as a formatting leaves them. -/
def IsHeld (f : Formatting) (here directory : Text) (s : Store) (a : Artifact) : Prop :=
  ∃ data, a.encode = .ok data ∧
    s.content? here (Path.join directory a.name) = some (f a.name data).1

/-- Whether the name of an artifact is that of an entry that is not hidden. -/
structure IsPlain (name : Text) : Prop where
  isEntryName : Path.IsEntryName name
  head?_ne : name.head? ≠ some (.scalar '.')

/-- How bytes get into their place at a location: in a new file with the mode that a mask leaves, or
in one that is replaced and hands its mode on. -/
inductive PutInPlace (mask : Mode) (s s' : Store) (l : Location) (data : Bytes) : Prop
  | created (hbefore : s.get? l = none)
      (hafter : s'.get? l = some (.file data (newFileMode mask)))
  | replaced (old : Bytes) (mode : Mode) (hbefore : s.get? l = some (.file old mode))
      (hafter : s'.get? l = some (.file data mode))

theorem PutInPlace.get?_eq {mask : Mode} {s s' : Store} {l : Location} {data : Bytes}
    (h : PutInPlace mask s s' l data) :
    s'.get? l = some (.file data (((s.get? l).map Entry.mode).getD (newFileMode mask))) := by
  cases h with
  | created hbefore hafter => rw [hafter, hbefore]; rfl
  | replaced old mode hbefore hafter => rw [hafter, hbefore]; rfl

theorem putInPlace_of_get?_eq {mask : Mode} {s s' : Store} {l : Location} {data : Bytes}
    (hfile : ¬ s.IsDirectoryAt l)
    (h : s'.get? l = some (.file data (((s.get? l).map Entry.mode).getD (newFileMode mask)))) :
    PutInPlace mask s s' l data := by
  cases hold : s.get? l with
  | none =>
      rw [hold] at h
      exact .created hold h
  | some e =>
      cases e with
      | directory mode => exact absurd ⟨mode, hold⟩ hfile
      | file old mode =>
          rw [hold] at h
          exact .replaced old mode hold h

theorem runOn_put_eq_ok (host : Host) (path : Text) (data : Bytes) (w w' : Workspace)
    (h : (put host path data).runOn w = (.ok (), w')) :
    host.replace path data w.store = (.ok (), w'.store) :=
  Action.exists_of_runOn_change_eq_ok _ w w' () h

theorem runOn_put_of_replace (host : Host) (path : Text) (data : Bytes) (w : Workspace) (s : Store)
    (h : host.replace path data w.store = (.ok (), s)) :
    (put host path data).runOn w = (.ok (), { w with store := s }) :=
  Action.runOn_change_of_ok _ w () s h

theorem runOn_put_of_replace_error (host : Host) (path : Text) (data : Bytes) (w : Workspace)
    (s : Store) (f : StoreFault)
    (h : host.replace path data w.store = (.error f, s)) :
    (put host path data).runOn w = (.error (.ofStore f), { w with store := s }) :=
  Action.runOn_change_of_error _ w f s h

theorem runOn_encode_of_ok (a : Artifact) (data : Bytes) (w : Workspace) (h : a.encode = .ok data) :
    (Action.ofStore fun _ => a.encode.mapError Failure.encoding).runOn w = (.ok data, w) := by
  rw [h]
  rfl

theorem runOn_encode_of_error (a : Artifact) (f : Utf8.EncodeFault) (w : Workspace)
    (h : a.encode = .error f) :
    (Action.ofStore fun _ => a.encode.mapError Failure.encoding).runOn w =
      (.error (.encoding f), w) := by
  rw [h]
  rfl

/-- An artifact can be written as well where only entries with other names are different. -/
theorem CanWrite.congr (here directory : Text) (hhere : Path.isAbsolute here = true)
    (hdir : directory ≠ []) (s s' : Store) (names : List Text)
    (hnames : ∀ n ∈ names, n.head? ≠ some (.scalar '.')) (hagree : Store.AgreesBut names s s')
    (a : Artifact) (hname : Path.slash ∉ a.name) (h : CanWrite here directory s a) :
    CanWrite here directory s' a := by
  obtain ⟨hdata, ⟨parent, hlocate, hfile⟩, hplace⟩ := h
  exact ⟨hdata, ⟨parent, (hagree.locate_iff _ _ _).2 hlocate,
      fun hdirectory => hfile ((hagree.isDirectoryAt_iff _).1 hdirectory)⟩,
    hplace.congr s s' names here directory a.name hhere hdir hname hnames hagree⟩

section Directory

variable (host : Host) (directory : Text) (skip : Bool)
variable (hhere : Path.isAbsolute host.here = true) (hdir : directory ≠ [])

theorem writeOver_eq_ok_cases (path : Text) (held : Option Bytes) (data : Bytes) (w w' : Workspace)
    (h : (writeOver host path held data).runOn w = (.ok (), w')) :
    held = some data ∧ w'.store = w.store ∨
      held ≠ some data ∧ host.replace path data w.store = (.ok (), w'.store) := by
  unfold writeOver at h
  split at h
  · next hheld =>
      rw [Action.runOn_record] at h
      obtain ⟨-, rfl⟩ := Prod.mk.inj h
      exact .inl ⟨hheld, rfl⟩
  · next hheld =>
      obtain ⟨_, w₁, hput, h⟩ := Action.exists_of_runOn_bind_eq_ok _ _ _ _ _ h
      rw [Action.runOn_record] at h
      obtain ⟨-, rfl⟩ := Prod.mk.inj h
      exact .inr ⟨hheld, runOn_put_eq_ok host path data w w₁ hput⟩

theorem replace_of_writeOver_eq_error (path : Text) (held : Option Bytes) (data : Bytes)
    (w w' : Workspace) (e : Failure)
    (h : (writeOver host path held data).runOn w = (.error e, w')) :
    ∃ f, host.replace path data w.store = (.error f, w'.store) ∧ e = .ofStore f := by
  unfold writeOver at h
  split at h
  · exact nomatch (Prod.mk.inj h).1
  · rcases Action.runOn_bind_eq_error _ _ _ _ _ h with hput | ⟨_, w₁, -, h⟩
    · exact Action.exists_of_runOn_change_eq_error _ _ _ _ hput
    · exact nomatch (Prod.mk.inj h).1

/-- What writing an artifact does after its bytes are known, and those of its file if they are asked
for. -/
theorem runOn_write_of_held (a : Artifact) (data : Bytes) (held : Option Bytes) (w : Workspace)
    (hdata : a.encode = .ok data)
    (hheld : (if skip then host.content? (Path.join directory a.name) w.store else .ok none) =
      .ok held) :
    (write host directory skip a).runOn w =
      (do
        writeOver host (Path.join directory a.name) held data
        return Path.absolute host.here (Path.join directory a.name) : Action Text).runOn w := by
  rw [write, Action.runOn_bind_of_ok _ _ w w data (runOn_encode_of_ok a data w hdata)]
  cases skip with
  | true => exact Action.runOn_bind_of_ok _ _ w w held (Action.runOn_read_of_ok _ w held hheld)
  | false =>
      rw [if_neg Bool.false_ne_true] at hheld
      obtain rfl := Except.ok.inj hheld
      exact Action.runOn_bind_of_ok _ _ w w none rfl

theorem runOn_write_of_encode_error (a : Artifact) (f : Utf8.EncodeFault) (w : Workspace)
    (h : a.encode = .error f) :
    (write host directory skip a).runOn w = (.error (.encoding f), w) := by
  rw [write, Action.runOn_bind_of_error _ _ w w _ (runOn_encode_of_error a f w h)]

theorem runOn_write_of_unread (a : Artifact) (data : Bytes) (f : StoreFault) (w : Workspace)
    (hdata : a.encode = .ok data)
    (h : host.content? (Path.join directory a.name) w.store = .error f) :
    (write host directory true a).runOn w = (.error (.ofStore f), w) := by
  rw [write, Action.runOn_bind_of_ok _ _ w w data (runOn_encode_of_ok a data w hdata)]
  exact Action.runOn_bind_of_error _ _ w w _ (Action.runOn_read_of_error _ w f h)

theorem exists_runOn_write_of_content? (a : Artifact) (data : Bytes) (w : Workspace)
    (hdata : a.encode = .ok data)
    (hcontent : host.content? (Path.join directory a.name) w.store = .ok (some data)) :
    ∃ w', (write host directory true a).runOn w =
      (.ok (Path.absolute host.here (Path.join directory a.name)), w') ∧ w'.store = w.store := by
  rw [runOn_write_of_held host directory true a data (some data) w hdata hcontent, writeOver,
    if_pos rfl]
  exact ⟨_, rfl, rfl⟩

theorem exists_runOn_write_of_put (a : Artifact) (data : Bytes) (w w₁ : Workspace)
    (hdata : a.encode = .ok data)
    (hput : (put host (Path.join directory a.name) data).runOn w = (.ok (), w₁)) :
    ∃ w', (write host directory false a).runOn w =
      (.ok (Path.absolute host.here (Path.join directory a.name)), w') ∧ w'.store = w₁.store := by
  rw [runOn_write_of_held host directory false a data none w hdata rfl, writeOver, if_neg nofun,
    Action.runOn_bind_of_ok _ _ w { w₁ with journal := w₁.journal ++ [_] } ()
      (Action.runOn_bind_of_ok _ _ w w₁ () hput)]
  exact ⟨_, rfl, rfl⟩

include hhere

theorem exists_set_of_write_eq_ok (path : Text) (a : Artifact) (w w' : Workspace)
    (h : (write host directory skip a).runOn w = (.ok path, w')) :
    path = Path.absolute host.here (Path.join directory a.name) ∧
      (skip = false → w.store.HasTemporaryPlace host.here (Path.join directory a.name)) ∧
      ∃ l data, a.encode = .ok data ∧
        w.store.locate host.here (Path.join directory a.name) = .ok l ∧ l ≠ [] ∧
        ¬ w.store.IsDirectoryAt l ∧
        w'.store = w.store.set l
          (.file data (w.store.modeUnder host.umask host.here (Path.join directory a.name))) := by
  cases hdata : a.encode with
  | error f =>
      rw [runOn_write_of_encode_error host directory skip a f w hdata] at h
      exact nomatch (Prod.mk.inj h).1
  | ok data =>
      cases hheld : (if skip then host.content? (Path.join directory a.name) w.store
          else .ok none) with
      | error f =>
          cases skip with
          | false => exact nomatch hheld
          | true =>
              rw [runOn_write_of_unread host directory a data f w hdata hheld] at h
              exact nomatch (Prod.mk.inj h).1
      | ok held =>
          rw [runOn_write_of_held host directory skip a data held w hdata hheld] at h
          obtain ⟨_, w₁, hover, h⟩ := Action.exists_of_runOn_bind_eq_ok _ _ _ _ _ h
          obtain ⟨hpath, rfl⟩ := Prod.mk.inj h
          refine ⟨(Except.ok.inj hpath).symm, ?_⟩
          rcases writeOver_eq_ok_cases host _ held data w w₁ hover with
            ⟨rfl, hstore⟩ | ⟨-, hreplace⟩
          · -- The file holds the bytes already, so that setting it again changes nothing.
            cases skip with
            | false => exact nomatch hheld
            | true =>
                obtain ⟨-, hcontent⟩ := (host.content?_eq_ok_some_iff _ _ _).1 hheld
                obtain ⟨l, mode, hl, hget⟩ := (Store.content?_eq_some_iff _ _ _ _).1 hcontent
                have hne : l ≠ [] := Store.ne_nil_of_get?_eq_file _ l data mode hget
                have hmode : w.store.modeUnder host.umask host.here (Path.join directory a.name) =
                    mode := by
                  rw [Store.modeUnder_eq_of_locate _ _ _ _ _ hl, hget]
                  rfl
                refine ⟨nofun, l, data, rfl, hl, hne,
                  Store.not_isDirectoryAt_of_get?_eq_file _ _ data mode hget, ?_⟩
                rw [hmode, hstore]
                exact (Store.set_eq_self _ _ _ hne hget).symm
          · obtain ⟨-, hplace, -, parent, hl, -, hfile, hset⟩ :=
              Store.setsFile_of_replace_eq_ok _ _ _ _ _ _ _ hhere hreplace
            exact ⟨fun _ => hplace, _, data, rfl, hl, by simp, hfile, hset⟩

/-- An artifact that is not written leaves the files as they are. -/
theorem hindrance_of_write_eq_error (a : Artifact) (w w' : Workspace) (e : Failure)
    (h : (write host directory skip a).runOn w = (.error e, w')) :
    w'.store = w.store ∧ Hindrance host directory skip w.store a e := by
  cases hdata : a.encode with
  | error f =>
      rw [runOn_write_of_encode_error host directory skip a f w hdata] at h
      obtain ⟨he, rfl⟩ := Prod.mk.inj h
      obtain rfl := Except.error.inj he
      exact ⟨rfl, .unencoded f hdata⟩
  | ok data =>
      cases hheld : (if skip then host.content? (Path.join directory a.name) w.store
          else .ok none) with
      | error f =>
          cases skip with
          | false => exact nomatch hheld
          | true =>
              rw [runOn_write_of_unread host directory a data f w hdata hheld] at h
              obtain ⟨he, rfl⟩ := Prod.mk.inj h
              obtain rfl := Except.error.inj he
              exact ⟨rfl, .unread data f hdata rfl hheld⟩
      | ok held =>
          rw [runOn_write_of_held host directory skip a data held w hdata hheld] at h
          rcases Action.runOn_bind_eq_error _ _ _ _ _ h with hover | ⟨_, w₁, -, h⟩
          · obtain ⟨f, hreplace, rfl⟩ :=
              replace_of_writeOver_eq_error host _ held data w w' e hover
            have hstore := Store.eq_of_replace_eq_error _ _ _ _ _ _ _ hhere f hreplace
            rw [hstore] at hreplace
            exact ⟨hstore, .refused data f hdata hreplace⟩
          · exact nomatch (Prod.mk.inj h).1

include hdir

theorem exists_of_write_eq_ok (path : Text) (a : Artifact) (w w' : Workspace)
    (hname : Path.IsEntryName a.name)
    (h : (write host directory skip a).runOn w = (.ok path, w')) :
    path = Path.absolute host.here (Path.join directory a.name) ∧
      (skip = false → w.store.HasTemporaryPlace host.here (Path.join directory a.name)) ∧
      ∃ parent data, a.encode = .ok data ∧
        w.store.locate host.here (Path.join directory a.name) = .ok (parent ++ [a.name]) ∧
        w.store.IsDirectoryAt parent ∧ ¬ w.store.IsDirectoryAt (parent ++ [a.name]) ∧
        w'.store = w.store.set (parent ++ [a.name])
          (.file data (w.store.modeUnder host.umask host.here (Path.join directory a.name))) := by
  obtain ⟨hpath, hplace, l, data, hdata, hl, -, hfile, hset⟩ :=
    exists_set_of_write_eq_ok host directory skip hhere path a w w' h
  obtain ⟨parent, rfl, -, hparent, -⟩ :=
    Store.exists_of_locate_join _ host.here directory a.name l hdir hname hl
  exact ⟨hpath, hplace, parent, data, hdata, hl, hparent, hfile, hset⟩

theorem exists_runOn_put_of_canWrite (a : Artifact)
    (hallowed : host.refusals (Path.join directory a.name) = .none)
    (hname : Path.IsEntryName a.name) (w : Workspace) (h : CanWrite host.here directory w.store a) :
    ∃ parent data w', a.encode = .ok data ∧
      w.store.locate host.here (Path.join directory a.name) = .ok (parent ++ [a.name]) ∧
      w.store.IsDirectoryAt parent ∧ ¬ w.store.IsDirectoryAt (parent ++ [a.name]) ∧
      (put host (Path.join directory a.name) data).runOn w = (.ok (), w') ∧
      w'.store = w.store.set (parent ++ [a.name])
        (.file data (w.store.modeUnder host.umask host.here (Path.join directory a.name))) := by
  obtain ⟨⟨data, hdata⟩, ⟨parent, hlocate, hfile⟩, hplace⟩ := h
  obtain ⟨parent', heq, -, hparent, -⟩ :=
    Store.exists_of_locate_join _ host.here directory a.name _ hdir hname hlocate
  obtain ⟨rfl, -⟩ := List.append_inj' heq rfl
  have hbase : Path.IsEntryName (Path.base (Path.join directory a.name)) := by
    rwa [Path.base_join directory a.name hdir hname.slash_not_mem]
  have hreplace := Store.replace_of_hasTemporaryPlace w.store host.umask host.here _ data hhere _
    hbase hplace hlocate hfile
  rw [← hallowed] at hreplace
  exact ⟨parent, data, _, hdata, hlocate, hparent, hfile,
    runOn_put_of_replace host _ data w _ hreplace, rfl⟩

/-- Writing artifacts is a sequence of steps that each set a file. -/
theorem written_of_writeAll_eq_ok (as : List Artifact) (paths : List Text) (w w' : Workspace)
    (hnames : ∀ a ∈ as, Path.IsEntryName a.name)
    (h : (writeAll host directory skip as).runOn w = (.ok paths, w')) :
    paths = as.map (fun a => Path.absolute host.here (Path.join directory a.name)) ∧
      Written host.umask host.here directory as w.store w'.store := by
  induction as generalizing w paths with
  | nil =>
      obtain ⟨hpaths, rfl⟩ := Prod.mk.inj h
      exact ⟨(Except.ok.inj hpaths).symm, .nil _⟩
  | cons a as ih =>
      obtain ⟨hname, hnames⟩ := List.forall_mem_cons.1 hnames
      obtain ⟨path, w₁, hwrite, h⟩ := Action.exists_of_runOn_bind_eq_ok _ _ _ _ _ h
      obtain ⟨rest, w₂, hwriteAll, h⟩ := Action.exists_of_runOn_bind_eq_ok _ _ _ _ _ h
      obtain ⟨hpaths, rfl⟩ := Prod.mk.inj h
      obtain ⟨rfl, -, parent, data, hdata, hl, hparent, hfile, hset⟩ :=
        exists_of_write_eq_ok host directory skip hhere hdir path a w w₁ hname hwrite
      obtain ⟨rfl, hrest⟩ := ih rest w₁ hnames hwriteAll
      rw [hset] at hrest
      exact ⟨(Except.ok.inj hpaths).symm, .cons a as _ _ parent data hdata hl hparent hfile hrest⟩

/-- A failure leaves a beginning of the artifacts written, and is that of the one that follows. -/
theorem stopped_of_writeAll_eq_error (as : List Artifact) (w w' : Workspace) (e : Failure)
    (hnames : ∀ a ∈ as, Path.IsEntryName a.name)
    (h : (writeAll host directory skip as).runOn w = (.error e, w')) :
    Stopped host directory skip as w.store w'.store e := by
  induction as generalizing w with
  | nil => exact nomatch (Prod.mk.inj h).1
  | cons a as ih =>
      obtain ⟨hname, hnames⟩ := List.forall_mem_cons.1 hnames
      rcases Action.runOn_bind_eq_error _ _ _ _ _ h with hwrite | ⟨path, w₁, hwrite, h⟩
      · obtain ⟨hstore, hwhy⟩ :=
          hindrance_of_write_eq_error host directory skip hhere a w w' e hwrite
        rw [hstore]
        exact ⟨[], a, as, rfl, .nil _, hwhy⟩
      · obtain ⟨-, -, parent, data, hdata, hl, hparent, hfile, hset⟩ :=
          exists_of_write_eq_ok host directory skip hhere hdir path a w w₁ hname hwrite
        rcases Action.runOn_bind_eq_error _ _ _ _ _ h with h | ⟨paths, w₂, -, h⟩
        · obtain ⟨done, b, rest, rfl, hwritten, hwhy⟩ := ih w₁ hnames h
          rw [hset] at hwritten
          exact ⟨a :: done, b, rest, rfl, .cons a done _ _ parent data hdata hl hparent hfile
            hwritten, hwhy⟩
        · exact nomatch (Prod.mk.inj h).1

theorem hasTemporaryPlace_of_writeAll_eq_ok (as : List Artifact) (paths : List Text)
    (w w' : Workspace) (hnames : ∀ a ∈ as, IsPlain a.name)
    (h : (writeAll host directory false as).runOn w = (.ok paths, w')) :
    ∀ a ∈ as, w.store.HasTemporaryPlace host.here (Path.join directory a.name) := by
  induction as generalizing w paths with
  | nil => exact fun a ha => nomatch ha
  | cons a as ih =>
      obtain ⟨hname, hnames⟩ := List.forall_mem_cons.1 hnames
      obtain ⟨path, w₁, hwrite, h⟩ := Action.exists_of_runOn_bind_eq_ok _ _ _ _ _ h
      obtain ⟨rest, w₂, hwriteAll, h⟩ := Action.exists_of_runOn_bind_eq_ok _ _ _ _ _ h
      obtain ⟨-, rfl⟩ := Prod.mk.inj h
      obtain ⟨-, hplace, parent, data, -, -, -, hfile, hset⟩ :=
        exists_of_write_eq_ok host directory false hhere hdir path a w w₁ hname.isEntryName hwrite
      refine List.forall_mem_cons.2 ⟨hplace rfl, fun b hb => ?_⟩
      have hagree := Store.agreesBut_set_file w.store parent a.name data
        (w.store.modeUnder host.umask host.here (Path.join directory a.name)) hfile
      rw [← hset] at hagree
      exact (ih rest w₁ hnames hwriteAll b hb).congr _ _ [a.name] host.here directory b.name hhere
        hdir (hnames b hb).isEntryName.slash_not_mem (List.forall_mem_singleton.2 hname.head?_ne)
        hagree.symm

end Directory

section Success

variable (host : Host) (directory : Text) (as : List Artifact)

variable (hhere : Path.isAbsolute host.here = true)
variable (hallowed : ∀ a ∈ as, host.refusals (Path.join directory a.name) = .none)
variable (hdir : directory ≠ [])
include hhere hallowed hdir

end Success

end Artifact

end LocaleKeys
