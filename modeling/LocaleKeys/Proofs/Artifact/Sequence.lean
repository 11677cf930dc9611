import LocaleKeys.Proofs.Artifact.Writing
import LocaleKeys.Proofs.Run.Generation

/-!
# Artifacts are written in order

Artifacts may have any names, also the same one twice, or two that lead to one file. After they have
been written, a file holds the bytes of the last artifact that leads to it, and every file that none
of them leads to is as it was (`Laid`). Writing that fails has written some of the artifacts, from
the first one on, and is at the point at which writing just these has succeeded
(`exists_of_writeAll_eq_error`), so that the same can be said of them
(`writing_leaves_the_first_artifacts`).
-/

namespace LocaleKeys

namespace Artifact

/-- Bytes that are put into the place of others have been put into the place of what was there
before them. -/
theorem PutInPlace.trans {mask : Mode} {s s₁ s₂ : Store} {l : Location} {data data' : Bytes}
    (h : PutInPlace mask s s₁ l data) (h' : PutInPlace mask s₁ s₂ l data') :
    PutInPlace mask s s₂ l data' := by
  have hget := h'.get?_eq
  cases h with
  | created hbefore hafter =>
      rw [hafter] at hget
      exact .created hbefore hget
  | replaced old mode hbefore hafter =>
      rw [hafter] at hget
      exact .replaced old mode hbefore hget

theorem PutInPlace.congr {mask : Mode} {s s₁ s₂ : Store} {l : Location} {data : Bytes}
    (h : PutInPlace mask s₁ s₂ l data) (hsame : s₁.get? l = s.get? l) :
    PutInPlace mask s s₂ l data := by
  cases h with
  | created hbefore hafter => exact .created (hsame ▸ hbefore) hafter
  | replaced old mode hbefore hafter => exact .replaced old mode (hsame ▸ hbefore) hafter

/-- What writing artifacts to a directory makes of a store. -/
structure Laid (mask : Mode) (here directory : Text) (as : List Artifact) (s s' : Store) : Prop
    extends Store.SameDirectories s s' where
  /-- The path of each artifact leads to a file, or to where one can be made. -/
  exists_locate : ∀ a ∈ as, ∃ l, s.locate here (Path.join directory a.name) = .ok l ∧
    ¬ s.IsDirectoryAt l
  /-- The last one of the artifacts that lead to a location has its bytes there. -/
  putInPlace : ∀ before a after l, as = before ++ a :: after →
    s.locate here (Path.join directory a.name) = .ok l →
    (∀ b ∈ after, s.locate here (Path.join directory b.name) ≠ .ok l) →
    ∃ data, a.encode = .ok data ∧ PutInPlace mask s s' l data
  get?_eq : ∀ l, (∀ a ∈ as, s.locate here (Path.join directory a.name) ≠ .ok l) →
    s'.get? l = s.get? l

/-- Whether two artifacts lead to the same place in a directory. -/
def SamePlace (s : Store) (here directory : Text) (a b : Artifact) : Prop :=
  ∃ l, s.locate here (Path.join directory a.name) = .ok l ∧
    s.locate here (Path.join directory b.name) = .ok l

theorem SamePlace.name_eq {s : Store} {here directory : Text} {a b : Artifact}
    (h : SamePlace s here directory a b) (hdir : directory ≠ []) (ha : Path.IsEntryName a.name)
    (hb : Path.IsEntryName b.name) : a.name = b.name := by
  obtain ⟨l, hla, hlb⟩ := h
  obtain ⟨above, rfl, -⟩ := s.exists_of_locate_join here directory a.name l hdir ha hla
  obtain ⟨above', heq, -⟩ := s.exists_of_locate_join here directory b.name _ hdir hb hlb
  exact (List.cons.inj (List.append_inj' heq rfl).2).1

theorem Laid.nil (mask : Mode) (here directory : Text) (s : Store) :
    Laid mask here directory [] s s where
  isDirectoryAt_iff _ := Iff.rfl
  exists_locate _ ha := nomatch ha
  putInPlace _ _ _ _ has := nomatch (List.append_eq_nil_iff.1 has.symm).2
  get?_eq _ _ := rfl

/-- An artifact that is written first has its bytes in place unless a later one replaces them. -/
theorem Laid.cons {mask : Mode} {here directory : Text} {as : List Artifact} {s s' : Store}
    (a : Artifact) (l : Location) (data : Bytes) (hdata : a.encode = .ok data)
    (hl : s.locate here (Path.join directory a.name) = .ok l) (hne : l ≠ [])
    (hfile : ¬ s.IsDirectoryAt l)
    (h : Laid mask here directory as
      (s.set l (.file data (s.modeUnder mask here (Path.join directory a.name)))) s') :
    Laid mask here directory (a :: as) s s' := by
  have hsame := Store.sameDirectories_set_file s l data
    (s.modeUnder mask here (Path.join directory a.name)) hne hfile
  have hset :=
    Store.get?_set_self s l (.file data (s.modeUnder mask here (Path.join directory a.name))) hne
  have hother := fun k hk =>
    Store.get?_set_of_ne s l k (.file data (s.modeUnder mask here (Path.join directory a.name))) hk
  rw [Store.modeUnder_eq_of_locate s mask here _ l hl] at h hsame hset hother
  have hput := putInPlace_of_get?_eq hfile hset
  refine ⟨⟨fun k => (h.isDirectoryAt_iff k).trans (hsame.isDirectoryAt_iff k)⟩, ?_, ?_, ?_⟩
  · refine List.forall_mem_cons.2 ⟨⟨l, hl, hfile⟩, fun b hb => ?_⟩
    obtain ⟨k, hk, hkfile⟩ := h.exists_locate b hb
    exact ⟨k, (hsame.locate_iff _ _ _).1 hk, fun hk' => hkfile ((hsame.isDirectoryAt_iff k).2 hk')⟩
  · intro before b after k has hk hafter
    have hafter := fun c hc hkc => hafter c hc ((hsame.locate_iff _ _ _).1 hkc)
    cases before with
    | nil =>
        obtain ⟨rfl, rfl⟩ := List.cons.inj has
        obtain rfl := Except.ok.inj (hl.symm.trans hk)
        refine ⟨data, hdata, putInPlace_of_get?_eq hfile ?_⟩
        rw [h.get?_eq l hafter, hset]
    | cons c before =>
        obtain ⟨rfl, rfl⟩ := List.cons.inj has
        obtain ⟨data', hdata', hput'⟩ := h.putInPlace before b after k rfl
          ((hsame.locate_iff _ _ _).2 hk) hafter
        refine ⟨data', hdata', ?_⟩
        by_cases hkl : k = l
        · subst hkl
          exact hput.trans hput'
        · exact hput'.congr (hother k hkl)
  · intro k hk
    obtain ⟨hka, hk⟩ := List.forall_mem_cons.1 hk
    rw [h.get?_eq k fun b hb hkb => hk b hb ((hsame.locate_iff _ _ _).1 hkb)]
    refine hother k fun hkl => hka ?_
    rw [hkl]
    exact hl

theorem Laid.entry_iff {mask : Mode} {here directory : Text} {as : List Artifact} {s s' : Store}
    (h : Laid mask here directory as s s') (b : Artifact)
    (hb : ∀ a ∈ as, ¬ SamePlace s here directory a b) (l : Location) (e : Entry) :
    s'.entry here (Path.join directory b.name) = .ok (l, e) ↔
      s.entry here (Path.join directory b.name) = .ok (l, e) :=
  h.toSameDirectories.entry_iff here _ (fun k hk => h.get?_eq k fun a ha hka =>
    hb a ha ⟨k, hka, hk⟩) l e

theorem Laid.agreesBut {mask : Mode} {here directory : Text} {as : List Artifact} {s s' : Store}
    (h : Laid mask here directory as s s') (hdir : directory ≠ [])
    (hnames : ∀ a ∈ as, Path.IsEntryName a.name) :
    Store.AgreesBut (as.map Artifact.name) s s' where
  toSameDirectories := h.toSameDirectories
  get?_eq parent name hname := by
    refine h.get?_eq _ fun a ha hl => hname (List.mem_map.2 ⟨a, ha, ?_⟩)
    obtain ⟨above, heq, -⟩ := s.exists_of_locate_join here directory a.name _ hdir (hnames a ha) hl
    exact ((List.cons.inj (List.append_inj' heq rfl).2).1).symm

/-- How writing artifacts ends: with all of them laid and their absolute paths, or at one of them,
with those before it laid. -/
inductive WritingOutcome (host : Host) (directory : Text) (skip : Bool) (as : List Artifact)
    (w : Workspace) : Except Failure (List Text) × Workspace → Prop
  | written (w' : Workspace) (hlaid : Laid host.umask host.here directory as w.store w'.store) :
      WritingOutcome host directory skip as w
        (.ok (as.map fun a => Path.absolute host.here (Path.join directory a.name)), w')
  | stopped (done rest : List Artifact) (a : Artifact) (paths : List Text) (w₁ w' : Workspace)
      (e : Failure) (has : as = done ++ a :: rest)
      (hdone : (writeAll host directory skip done).runOn w = (.ok paths, w₁))
      (hstore : w'.store = w₁.store)
      (hlaid : Laid host.umask host.here directory done w.store w'.store)
      (hwhy : Hindrance host directory skip w'.store a e)
      (hkept : ∀ b ∈ a :: rest, (∀ c ∈ done, ¬ SamePlace w.store host.here directory c b) →
        ∀ l e, w'.store.entry host.here (Path.join directory b.name) = .ok (l, e) ↔
          w.store.entry host.here (Path.join directory b.name) = .ok (l, e)) :
      WritingOutcome host directory skip as w (.error e, w')

section Writing

variable (host : Host) (directory : Text) (skip : Bool)

/-- Writing that fails has succeeded up to one of the artifacts, and fails at that one. -/
theorem exists_of_writeAll_eq_error (as : List Artifact) (w w' : Workspace) (e : Failure)
    (h : (writeAll host directory skip as).runOn w = (.error e, w')) :
    ∃ done a rest paths w₁, as = done ++ a :: rest ∧
      (writeAll host directory skip done).runOn w = (.ok paths, w₁) ∧
      (write host directory skip a).runOn w₁ = (.error e, w') := by
  induction as generalizing w with
  | nil => cases (Prod.mk.inj h).1
  | cons a as ih =>
      rcases Action.runOn_bind_eq_error _ _ _ _ _ h with hwrite | ⟨path, w₁, hwrite, h⟩
      · exact ⟨[], a, as, [], w, rfl, rfl, hwrite⟩
      rcases Action.runOn_bind_eq_error _ _ _ _ _ h with h | ⟨paths, w₂, -, h⟩
      · obtain ⟨done, b, rest, paths, w₂, rfl, hdone, hstop⟩ := ih w₁ h
        refine ⟨a :: done, b, rest, path :: paths, w₂, rfl, ?_, hstop⟩
        rw [writeAll, Action.runOn_bind_of_ok _ _ w w₁ _ hwrite,
          Action.runOn_bind_of_ok _ _ w₁ w₂ _ hdone]
        rfl
      · cases (Prod.mk.inj h).1

variable (hhere : Path.isAbsolute host.here = true)
include hhere

/-- Writing that succeeds lays all artifacts, and gives their paths. -/
theorem laid_of_writeAll_eq_ok (as : List Artifact) (paths : List Text) (w w' : Workspace)
    (h : (writeAll host directory skip as).runOn w = (.ok paths, w')) :
    paths = as.map (fun a => Path.absolute host.here (Path.join directory a.name)) ∧
      Laid host.umask host.here directory as w.store w'.store := by
  induction as generalizing w paths with
  | nil =>
      obtain ⟨hpaths, rfl⟩ := Prod.mk.inj h
      exact ⟨(Except.ok.inj hpaths).symm, .nil _ _ _ _⟩
  | cons a as ih =>
      obtain ⟨path, w₁, hwrite, h⟩ := Action.exists_of_runOn_bind_eq_ok _ _ _ _ _ h
      obtain ⟨rest, w₂, hwriteAll, h⟩ := Action.exists_of_runOn_bind_eq_ok _ _ _ _ _ h
      obtain ⟨hpaths, rfl⟩ := Prod.mk.inj h
      obtain ⟨rfl, -, l, data, hdata, hl, hne, hfile, hset⟩ :=
        exists_set_of_write_eq_ok host directory skip hhere path a w w₁ hwrite
      obtain ⟨rfl, hrest⟩ := ih rest w₁ hwriteAll
      rw [hset] at hrest
      exact ⟨(Except.ok.inj hpaths).symm, hrest.cons a l data hdata hl hne hfile⟩

/-- However writing artifacts ends, some of them have been written in order, from the first one on,
and nothing else: all of them, or those before the one at which it stops. Where a later artifact
leads to the place of none of these, the entry is as it was; with names of entries that is where it
has the name of none of these. -/
theorem writing_leaves_the_first_artifacts (as : List Artifact) (w : Workspace) :
    WritingOutcome host directory skip as w ((writeAll host directory skip as).runOn w) ∧
      (directory ≠ [] → ∀ a b : Artifact, Path.IsEntryName a.name → Path.IsEntryName b.name →
        SamePlace w.store host.here directory a b → a.name = b.name) := by
  refine ⟨?_, fun hdir a b ha hb h => h.name_eq hdir ha hb⟩
  rcases hrun : (writeAll host directory skip as).runOn w with ⟨e | paths, w'⟩
  · obtain ⟨done, a, rest, paths, w₁, has, hdone, hstop⟩ :=
      exists_of_writeAll_eq_error host directory skip as w w' e hrun
    obtain ⟨hstore, hwhy⟩ := hindrance_of_write_eq_error host directory skip hhere a w₁ w' e hstop
    have hlaid := (laid_of_writeAll_eq_ok host directory skip hhere done paths w w₁ hdone).2
    rw [← hstore] at hlaid hwhy
    exact .stopped done rest a paths w₁ w' e has hdone hstore hlaid hwhy
      fun b _ hb => hlaid.entry_iff b hb
  · obtain ⟨rfl, hlaid⟩ := laid_of_writeAll_eq_ok host directory skip hhere as paths w w' hrun
    exact .written w' hlaid

end Writing

def repeatedArtifacts : List Artifact := [⟨"x", "1"⟩, ⟨"x", "2"⟩]

def unencodable : Artifact := ⟨"y", [.surrogate ⟨0, by decide⟩]⟩

theorem writing_leaves_the_first_artifacts_repeated :
    (∃ w', (writeAll bareHost "out" true repeatedArtifacts).runOn Run.nestedWorkspace =
        (.ok ["/out/x", "/out/x"], w') ∧
      w'.store.get? ["out", "x"] = some (.file [50] 0o644)) ∧
    ∃ e w' done a rest,
      (writeAll bareHost "out" true (repeatedArtifacts ++ [unencodable])).runOn
        Run.nestedWorkspace = (.error e, w') ∧
      repeatedArtifacts ++ [unencodable] = done ++ a :: rest ∧
      Laid 0o022 "/" "out" done Run.nestedWorkspace.store w'.store ∧
      Hindrance bareHost "out" true w'.store a e := by
  constructor
  · obtain ⟨houtcome, -⟩ := writing_leaves_the_first_artifacts bareHost "out" true rfl
      repeatedArtifacts Run.nestedWorkspace
    obtain ⟨paths, hrun, rfl⟩ := Action.exists_runOn_eq_of_map_toOption id
      (writeAll bareHost "out" true repeatedArtifacts) Run.nestedWorkspace
      (["/out/x", "/out/x"] : List Text) (by decide +kernel)
    refine ⟨_, hrun, ?_⟩
    generalize (writeAll bareHost "out" true repeatedArtifacts).runOn Run.nestedWorkspace = run
      at houtcome hrun ⊢
    cases houtcome with
    | stopped => exact nomatch hrun
    | written w' hlaid =>
        obtain ⟨data, hdata, hput⟩ := hlaid.putInPlace [⟨"x", "1"⟩] ⟨"x", "2"⟩ [] ["out", "x"] rfl
          (by decide +kernel) (fun b hb => nomatch hb)
        obtain rfl : data = [50] := Except.ok.inj (hdata.symm.trans (by decide +kernel))
        exact hput.get?_eq
  · obtain ⟨houtcome, -⟩ := writing_leaves_the_first_artifacts bareHost "out" true rfl
      (repeatedArtifacts ++ [unencodable]) Run.nestedWorkspace
    have hfails : ((writeAll bareHost "out" true (repeatedArtifacts ++ [unencodable])).runOn
        Run.nestedWorkspace).1.toOption = none := by decide +kernel
    generalize (writeAll bareHost "out" true (repeatedArtifacts ++ [unencodable])).runOn
      Run.nestedWorkspace = run at houtcome hfails
    cases houtcome with
    | written => exact nomatch hfails
    | stopped done rest a paths w₁ w' e has hdone hstore hlaid hwhy hkept =>
        exact ⟨e, w', done, a, rest, rfl, has, hlaid, hwhy⟩

end Artifact

end LocaleKeys
