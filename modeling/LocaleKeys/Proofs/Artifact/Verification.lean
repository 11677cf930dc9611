import LocaleKeys.Artifact.Verification
import LocaleKeys.Proofs.Artifact.Emission
import Mathlib.Data.List.Induction

/-!
# What verification compares

The staging directory is new and stands beside everything else, so that the committed files are
found as they are (`content?_of_isStaged`), and every artifact can be staged in it
(`exists_runOn_stage`). The outcome is then the one of comparing the bytes of each committed file
with those of its artifact, as the formatting leaves them, and the files are as before
(`exists_runOn_verify`).
-/

namespace LocaleKeys

namespace Verification

/-- Whether a staging directory can be made: there is a directory for it that is not overfull. -/
structure CanStage (s : Store) : Prop where
  isDirectoryAt : s.IsDirectoryAt (locationOf stagingParent)
  length_children : (s.children (locationOf stagingParent)).length < Digits.eightDigitLimit

structure IsStageable (name : Text) : Prop extends Artifact.IsPlain name where
  isNameable : ∀ c ∈ name, Name.isNameable c = true
  byteLength_le : Name.byteLength name + 14 ≤ Store.nameLimit

/-- Whether an artifact of that name can be staged in a directory with so many entries: the name of
its temporary file is not too long. -/
structure FitsAmong (n : Nat) (name : Text) : Prop where
  isEntryName : Path.IsEntryName name
  isNameable : ∀ c ∈ name, Name.isNameable c = true
  byteLength_le : Name.byteLength name + Store.temporaryExcess n ≤ Store.nameLimit

theorem IsStageable.fitsAmong {name : Text} (h : IsStageable name) (n : Nat)
    (hn : n < Digits.eightDigitLimit) : FitsAmong n name := by
  refine ⟨h.isEntryName, h.isNameable, ?_⟩
  rw [Store.temporaryExcess_of_lt n hn]
  exact h.byteLength_le

/-- Whether one store is another one with entries added at a free location and below it. -/
structure Besides (l : Location) (s s' : Store) : Prop where
  free : ∀ k, l <+: k → s.get? k = none
  same : ∀ k, ¬ l <+: k → s'.get? k = s.get? k

theorem get?_append_eq_none_of_isTree (s : Store) (hs : s.IsTree) (l : Location)
    (h : s.get? l = none) (rest : List Text) : s.get? (l ++ rest) = none := by
  induction rest using List.reverseRecOn with
  | nil => rwa [List.append_nil]
  | append_singleton rest name ih =>
      rw [← List.append_assoc]
      exact Store.get?_append_eq_none s hs (l ++ rest) name ih

theorem besides_set (s : Store) (hs : s.IsTree) (l : Location) (e : Entry)
    (h : s.get? l = none) : Besides l s (s.set l e) := by
  constructor
  · rintro k ⟨rest, rfl⟩
    exact get?_append_eq_none_of_isTree s hs l h rest
  · intro k hk
    refine Store.get?_set_of_ne s l k e ?_
    rintro rfl
    exact hk List.prefix_rfl

theorem Besides.isDirectoryAt (l : Location) (s s' : Store) (h : Besides l s s') (k : Location)
    (hk : s.IsDirectoryAt k) : s'.IsDirectoryAt k := by
  obtain ⟨m, hm⟩ := hk
  refine ⟨m, ?_⟩
  rw [h.same k, hm]
  intro hprefix
  rw [h.free k hprefix] at hm
  exact nomatch hm

/-- Whether one store is another one with a staging directory at a free location. -/
structure IsStaged (l : Location) (s s' : Store) : Prop extends Besides l s s' where
  get?_eq : s'.get? l = some (.directory stagingMode)

theorem isStaged_set (s : Store) (hs : s.IsTree) (l : Location) (hl : l ≠ [])
    (h : s.get? l = none) : IsStaged l s (s.set l (.directory stagingMode)) :=
  ⟨besides_set s hs l _ h, Store.get?_set_self s l _ hl⟩

theorem IsStaged.of_forall_ne {l : Location} {s s₁ s₂ : Store} (h : IsStaged l s s₁)
    (hsame : ∀ k, (∀ name, k ≠ l ++ [name]) → s₂.get? k = s₁.get? k) : IsStaged l s s₂ := by
  refine ⟨⟨h.free, fun k hk => ?_⟩, ?_⟩
  · rw [hsame k ?_, h.same k hk]
    rintro name rfl
    exact hk (List.prefix_append l [name])
  · rw [hsame l fun name => by simp, h.get?_eq]

theorem content?_of_isStaged (l : Location) (s s' : Store) (h : IsStaged l s s')
    (here dir name : Text) (hname : Path.IsEntryName name)
    (hdir : s.isDirectory here dir = true) :
    s'.content? here (Path.join dir name) = s.content? here (Path.join dir name) := by
  obtain ⟨d, hd, hat⟩ := (Store.isDirectory_iff s here dir).1 hdir
  have hdirne := ((Store.locate_eq_ok_iff _ _ _ _).1 hd).2.1
  have hd' := Store.locate_of_directories s s' (h.isDirectoryAt l s s') here dir d hd
  refine Option.ext fun bytes => ?_
  rw [Store.content?_eq_some_iff, Store.content?_eq_some_iff]
  constructor
  · rintro ⟨k, mode, hk, hget⟩
    obtain ⟨parent, rfl, hparent, -, hshort⟩ :=
      Store.exists_of_locate_join s' here dir name k hdirne hname hk
    obtain rfl : d = parent := Except.ok.inj (hd'.symm.trans hparent)
    -- The new entries are not in `d`, which was there before them.
    have hk' : ¬ l <+: d ++ [name] := by
      intro hprefix
      rcases List.prefix_concat_iff.1 hprefix with heq | hprefix
      · have hm := h.get?_eq
        rw [heq, hget] at hm
        exact nomatch hm
      · obtain ⟨m, hm⟩ := hat
        rw [h.free d hprefix] at hm
        exact nomatch hm
    obtain ⟨hnames, -, hlength, -⟩ := (Store.locate_eq_ok_iff _ _ _ _).1 hk
    have hnameable : ∀ c ∈ name, Name.isNameable c = true := fun c hc =>
      hnames c ((Path.mem_join_iff dir name hdirne hname.slash_not_mem c).2 (.inr (.inr hc)))
    refine ⟨d ++ [name], mode, ?_, by rw [← h.same _ hk', hget]⟩
    exact Store.locate_join s here dir name d hname hnameable hshort hlength hd hat
  · rintro ⟨k, mode, hk, hget⟩
    refine ⟨k, mode, Store.locate_of_directories s s' (h.isDirectoryAt l s s') here _ k hk, ?_⟩
    rw [h.same k, hget]
    intro hprefix
    rw [h.free k hprefix] at hget
    exact nomatch hget

theorem temporaryDirectory_ofNames (names : List Text)
    (hentries : ∀ n ∈ names, Path.IsEntryName n) (here name : Text)
    (hname : Path.IsEntryName name) :
    Store.temporaryDirectory here (Path.join (Path.ofNames names) name) = Path.ofNames names := by
  have hslash := hname.slash_not_mem
  have hall : ∀ n ∈ names ++ [name], Path.IsEntryName n :=
    List.forall_mem_append.2 ⟨hentries, List.forall_mem_singleton.2 hname⟩
  rw [Store.temporaryDirectory, Path.join_ofNames names hentries name hslash,
    Path.absolute_ofNames _ hall here, Path.directory_ofNames names hentries name hslash]

theorem canWrite_of_fitsAmong (names : List Text)
    (hentries : ∀ n ∈ names, Path.IsEntryName n) (here : Text)
    (hhere : Path.isAbsolute here = true)
    (hlength : Name.byteLength (Path.ofNames names) + 256 ≤ Store.pathLimit) (s : Store)
    (hlocate : s.locate here (Path.ofNames names) = .ok names) (hat : s.IsDirectoryAt names)
    (n : Nat) (hfew : (s.children names).length ≤ n) (a : Artifact) (ha : FitsAmong n a.name)
    (hdata : ∃ data, a.encode = .ok data) (hfile : ¬ s.IsDirectoryAt (names ++ [a.name])) :
    Artifact.CanWrite here (Path.ofNames names) s a := by
  have hname := ha.isEntryName
  have hshort := ha.byteLength_le
  have hdirne : Path.ofNames names ≠ [] := List.cons_ne_nil _ _
  have hlimit : Store.nameLimit = 255 := rfl
  have htemporary := temporaryDirectory_ofNames names hentries here a.name hname
  refine ⟨hdata, ⟨names, ?_, hfile⟩, ?_⟩
  · have hjoin := (Path.byteLength_join _ _ hdirne hname.slash_not_mem).2
    exact Store.locate_join _ _ _ _ _ hname ha.isNameable (by omega) (by omega) hlocate hat
  · refine Store.hasTemporaryPlace_of_length_children_le s here _ a.name names n hhere hdirne
      hname.slash_not_mem ha.isNameable ?_ hat hfew hshort ?_
    · rw [htemporary]
      exact hlocate
    · rw [htemporary]
      omega

theorem exists_runOn_stage (host : Host) (staging : Text)
    (hhere : Path.isAbsolute host.here = true) (hstaging : staging ≠ []) (as : List Artifact)
    (hallowed : ∀ a ∈ as, host.refusals (Path.join staging a.name) = .none)
    (hnames : ∀ a ∈ as, Artifact.IsPlain a.name) (w : Workspace)
    (h : ∀ a ∈ as, Artifact.CanWrite host.here staging w.store a) :
    ∃ w', (stage host staging as).runOn w = (.ok (as.map fun a => Path.join staging a.name), w') ∧
      Artifact.Written host.umask host.here staging as w.store w'.store := by
  induction as generalizing w with
  | nil => exact ⟨w, rfl, .nil _⟩
  | cons a as ih =>
      obtain ⟨hfirst, hallowed⟩ := List.forall_mem_cons.1 hallowed
      obtain ⟨hname, hnames⟩ := List.forall_mem_cons.1 hnames
      obtain ⟨ha, has⟩ := List.forall_mem_cons.1 h
      obtain ⟨parent, data, w₁, hdata, hlocate, hparent, hfile, hput, hset⟩ :=
        Artifact.exists_runOn_put_of_canWrite host staging hhere hstaging a hfirst
          hname.isEntryName w ha
      have hagree := Store.agreesBut_set_file w.store parent a.name data
        (w.store.modeUnder host.umask host.here (Path.join staging a.name)) hfile
      rw [← hset] at hagree
      obtain ⟨w₂, hstage, hwritten⟩ := ih hallowed hnames w₁ fun b hb =>
        (has b hb).congr host.here staging hhere hstaging _ _ [a.name]
          (List.forall_mem_singleton.2 hname.head?_ne) hagree b
          (hnames b hb).isEntryName.slash_not_mem
      rw [hset] at hwritten
      refine ⟨w₂, ?_, .cons a as _ _ parent data hdata hlocate hparent hfile hwritten⟩
      rw [stage, Action.runOn_bind_of_ok _ _ w w data (Artifact.runOn_encode_of_ok a data w hdata),
        Action.runOn_bind_of_ok _ _ w w₁ () hput, Action.runOn_bind_of_ok _ _ w₁ w₂ _ hstage]
      rfl

def compared (host : Host) (directory : Text) (s : Store) (p : Artifact × Text) :
    Except Failure (Text × Standing) := do
  let committed ← (host.content? (Path.join directory p.1.name) s).mapError Failure.ofStore
  let fresh ← if committed.isSome then (host.content? p.2 s).mapError Failure.ofStore else .ok none
  return (p.1.name, standing committed fresh)

theorem reads_tell (a : Artifact) (st : Standing) :
    (do tell a st; return (a.name, st) : Action (Text × Standing)).Reads
      fun _ => .ok (a.name, st) := by
  cases st with
  | same => exact Action.reads_pure _
  | different =>
      exact Action.Reads.of_record _ _ _ (Action.reads_record _ _ _) (Action.reads_pure _)
  | absent =>
      exact Action.Reads.of_record _ _ _ (Action.reads_record _ _ _) (Action.reads_pure _)

theorem reads_compare (host : Host) (directory : Text) (a : Artifact) (staged : Text) :
    (compare host directory a staged).Reads fun s => compared host directory s (a, staged) := by
  refine Action.Reads.bind _ _ _ _ (Action.reads_ofStore _) fun committed => ?_
  cases committed with
  | none =>
      exact Action.Reads.bind _ _ _ _ (Action.reads_pure none) fun fresh =>
        reads_tell a (standing none fresh)
  | some bytes =>
      exact Action.Reads.bind _ _ _ _ (Action.reads_ofStore _) fun fresh =>
        reads_tell a (standing (some bytes) fresh)

def comparedAll (host : Host) (directory : Text) (s : Store) :
    List (Artifact × Text) → Except Failure (List (Text × Standing))
  | [] => .ok []
  | p :: ps => do
      let st ← compared host directory s p
      let sts ← comparedAll host directory s ps
      return st :: sts

theorem reads_compareAll (host : Host) (directory : Text) (pairs : List (Artifact × Text)) :
    (compareAll host directory pairs).Reads fun s => comparedAll host directory s pairs := by
  induction pairs with
  | nil => exact Action.reads_pure _
  | cons p pairs ih =>
      obtain ⟨a, staged⟩ := p
      exact Action.Reads.bind _ _ _ _ (reads_compare host directory a staged) fun st =>
        Action.Reads.bind _ _ _ _ ih fun sts => Action.reads_pure (st :: sts)

/-- Why an artifact is not compared: its committed file cannot be read, or there is one and the
fresh copy cannot be read. -/
inductive Unread (host : Host) (directory : Text) (s : Store) (p : Artifact × Text)
    (f : StoreFault) : Prop
  | committed (h : host.content? (Path.join directory p.1.name) s = .error f)
  | fresh (bytes : Bytes)
      (hcommitted : host.content? (Path.join directory p.1.name) s = .ok (some bytes))
      (h : host.content? p.2 s = .error f)

theorem Unread.exists_system {host : Host} {directory : Text} {s : Store} {p : Artifact × Text}
    {f : StoreFault} (h : Unread host directory s p f) : ∃ e, f = .system e := by
  cases h with
  | committed h => exact host.exists_system_of_content?_eq_error _ s f h
  | fresh bytes hcommitted h => exact host.exists_system_of_content?_eq_error _ s f h

section Compared

variable (host : Host) (directory : Text) (s : Store)

theorem compared_eq_error_iff (p : Artifact × Text) (e : Failure) :
    compared host directory s p = .error e ↔ ∃ f, Unread host directory s p f ∧ e = .ofStore f := by
  unfold compared
  constructor
  · intro h
    rcases bind_eq_error_cases _ _ _ h with h | ⟨committed, hcommitted, h⟩
    · obtain ⟨f, hf, rfl⟩ := exists_of_mapError_eq_error _ _ _ h
      exact ⟨f, .committed hf, rfl⟩
    have hcommitted := (mapError_eq_ok_iff _ _ _).1 hcommitted
    cases committed with
    | none => cases h
    | some bytes =>
        rcases bind_eq_error_cases _ _ _ h with h | ⟨fresh, -, h⟩
        · obtain ⟨f, hf, rfl⟩ := exists_of_mapError_eq_error _ _ _ h
          exact ⟨f, .fresh bytes hcommitted hf, rfl⟩
        · cases h
  · rintro ⟨f, h | ⟨bytes, hcommitted, h⟩, rfl⟩
    · rw [h]
      rfl
    · rw [hcommitted, h]
      rfl

theorem eq_of_compared_eq_ok (p : Artifact × Text) (st : Text × Standing)
    (h : compared host directory s p = .ok st) :
    st = (p.1.name, standing (s.content? host.here (Path.join directory p.1.name))
      (s.content? host.here p.2)) := by
  obtain ⟨committed, hcommitted, h⟩ := exists_of_bind_eq_ok _ _ _ h
  rw [host.content?_eq_of_eq_ok _ _ _ ((mapError_eq_ok_iff _ _ _).1 hcommitted)]
  cases committed with
  | none => exact (Except.ok.inj h).symm
  | some bytes =>
      obtain ⟨fresh, hfresh, h⟩ := exists_of_bind_eq_ok _ _ _ h
      rw [host.content?_eq_of_eq_ok _ _ _ ((mapError_eq_ok_iff _ _ _).1 hfresh)]
      exact (Except.ok.inj h).symm

theorem eq_of_comparedAll_eq_ok (pairs : List (Artifact × Text)) (sts : List (Text × Standing))
    (h : comparedAll host directory s pairs = .ok sts) :
    sts = pairs.map fun p => (p.1.name, standing
      (s.content? host.here (Path.join directory p.1.name)) (s.content? host.here p.2)) := by
  induction pairs generalizing sts with
  | nil => exact (Except.ok.inj h).symm
  | cons p pairs ih =>
      obtain ⟨st, hst, h⟩ := exists_of_bind_eq_ok _ _ _ h
      obtain ⟨rest, hrest, h⟩ := exists_of_bind_eq_ok _ _ _ h
      rw [← Except.ok.inj h, eq_of_compared_eq_ok host directory s p st hst, ih rest hrest]
      rfl

/-- Artifacts are not compared exactly if one of them cannot be. -/
theorem exists_unread_of_comparedAll_eq_error (pairs : List (Artifact × Text)) (e : Failure)
    (h : comparedAll host directory s pairs = .error e) :
    ∃ p ∈ pairs, ∃ f, Unread host directory s p f ∧ e = .ofStore f := by
  induction pairs with
  | nil => cases h
  | cons p pairs ih =>
      rcases bind_eq_error_cases _ _ _ h with h | ⟨st, -, h⟩
      · exact ⟨p, List.mem_cons_self, (compared_eq_error_iff host directory s p e).1 h⟩
      rcases bind_eq_error_cases _ _ _ h with h | ⟨rest, -, h⟩
      · obtain ⟨q, hq, hunread⟩ := ih h
        exact ⟨q, List.mem_cons_of_mem p hq, hunread⟩
      · cases h

theorem not_unread_of_comparedAll_eq_ok (pairs : List (Artifact × Text))
    (sts : List (Text × Standing)) (h : comparedAll host directory s pairs = .ok sts)
    (p : Artifact × Text) (hp : p ∈ pairs) (f : StoreFault) : ¬ Unread host directory s p f := by
  induction pairs generalizing sts with
  | nil => exact nomatch hp
  | cons q pairs ih =>
      obtain ⟨st, hst, h⟩ := exists_of_bind_eq_ok _ _ _ h
      obtain ⟨rest, hrest, -⟩ := exists_of_bind_eq_ok _ _ _ h
      rcases List.mem_cons.1 hp with rfl | hp
      · intro hunread
        have herror := (compared_eq_error_iff host directory s p _).2 ⟨f, hunread, rfl⟩
        cases hst.symm.trans herror
      · exact ih rest hrest hp

end Compared

theorem compared_of_readRefusal_eq_none (host : Host) (directory : Text) (s : Store)
    (p : Artifact × Text) (hcommitted : host.readRefusal (Path.join directory p.1.name) = none)
    (hfresh : host.readRefusal p.2 = none) :
    compared host directory s p = .ok (p.1.name,
      standing (s.content? host.here (Path.join directory p.1.name))
        (s.content? host.here p.2)) := by
  rw [compared, host.content?_of_readRefusal_eq_none _ _ hcommitted,
    host.content?_of_readRefusal_eq_none _ _ hfresh]
  cases s.content? host.here (Path.join directory p.1.name) <;> rfl

theorem comparedAll_of_readRefusal_eq_none (host : Host) (directory : Text) (s : Store)
    (pairs : List (Artifact × Text))
    (hcommitted : ∀ p ∈ pairs, host.readRefusal (Path.join directory p.1.name) = none)
    (hfresh : ∀ p ∈ pairs, host.readRefusal p.2 = none) :
    comparedAll host directory s pairs = .ok (pairs.map fun p => (p.1.name, standing
      (s.content? host.here (Path.join directory p.1.name)) (s.content? host.here p.2))) := by
  induction pairs with
  | nil => rfl
  | cons p pairs ih =>
      obtain ⟨hcommitted₁, hcommitted⟩ := List.forall_mem_cons.1 hcommitted
      obtain ⟨hfresh₁, hfresh⟩ := List.forall_mem_cons.1 hfresh
      rw [comparedAll, compared_of_readRefusal_eq_none host directory s p hcommitted₁ hfresh₁,
        ih hcommitted hfresh]
      rfl

def stagedAt (fresh : Text) : Location := locationOf stagingParent ++ [fresh]

theorem ofNames_stagingParent : Path.ofNames (locationOf stagingParent) = stagingParent := by decide

theorem isEntryName_stagingParent : ∀ n ∈ locationOf stagingParent, Path.IsEntryName n := by decide

theorem locate_stagingParent (s : Store) (here : Text) :
    s.locate here stagingParent = .ok (locationOf stagingParent) := by
  have htmp : Path.IsEntryName "tmp" := by decide
  have hsplit : Text.split Path.slash stagingParent = [[], "tmp"] := by decide
  have hlocation : locationOf stagingParent = [] ++ [Text.ofString "tmp"] := by decide
  have horigin : Store.origin here stagingParent = [] := rfl
  refine (Store.locate_eq_ok_iff _ _ _ _).2 ⟨by decide, by decide, by decide, ?_⟩
  rw [horigin, hsplit, hlocation, Store.walk_cons_eq_ok_iff]
  refine ⟨s.isDirectoryAt_nil, (Store.walk_entry_eq_ok_iff s [] _ _ htmp).2 ?_⟩
  exact ⟨s.isDirectoryAt_nil, by decide, rfl⟩

theorem join_stagingParent (fresh : Text) (hfresh : Path.slash ∉ fresh) :
    Path.join stagingParent fresh = Path.ofNames (stagedAt fresh) := by
  rw [← ofNames_stagingParent]
  exact Path.join_ofNames _ isEntryName_stagingParent fresh hfresh

def stagingName (k : Nat) : Text := Store.numbered (fun n => "rntranslationgen-" ++ n) k

theorem isEntryName_stagingName (k : Nat) : Path.IsEntryName (stagingName k) := by
  have hhead : Path.slash ∉ Text.ofString "rntranslationgen-" := by decide
  have hlength : (Text.ofString "rntranslationgen-").length = 17 := rfl
  rw [stagingName, Store.numbered]
  refine Path.isEntryName_of_length _ ?_ fun h => ?_
  · rw [List.length_append]
    omega
  · rcases List.mem_append.1 h with h | h
    · exact hhead h
    · exact Store.slash_not_mem_ofChars_padded k h

theorem isNameable_of_mem_stagingName (k : Nat) :
    ∀ c ∈ stagingName k, Name.isNameable c = true := by
  have hhead : ∀ c ∈ Text.ofString "rntranslationgen-", Name.isNameable c = true := by decide
  rw [stagingName, Store.numbered]
  exact List.forall_mem_append.2 ⟨hhead, Store.isNameable_of_mem_ofChars_padded k⟩

theorem byteLength_stagingName (k : Nat) (hk : k < Digits.eightDigitLimit) :
    Name.byteLength (stagingName k) = 25 := by
  have hhead : Name.byteLength (Text.ofString "rntranslationgen-") = 17 := by decide
  rw [stagingName, Store.numbered, Name.byteLength_append, hhead,
    Store.byteLength_ofChars_padded k, Digits.length_padded_of_lt k hk]

theorem exists_stagingPath_eq_stagingName (s : Store) (here : Text) (taken : List Text)
    (h : (s.names here stagingParent).toOption.getD [] = taken) :
    ∃ k, k ≤ taken.length ∧ stagingPath here s = Path.ofNames (stagedAt (stagingName k)) ∧
      stagingName k ∉ taken := by
  obtain ⟨k, hk, hfresh, -⟩ :=
    Store.exists_freshName_eq taken (fun n => "rntranslationgen-" ++ n)
  have hnew := Store.freshName_not_mem taken (fun n => "rntranslationgen-" ++ n)
    fun m n h => List.append_cancel_left h
  rw [hfresh] at hnew
  refine ⟨k, hk, ?_, hnew⟩
  rw [stagingPath, h]
  exact (congrArg (Path.join stagingParent) hfresh).trans
    (join_stagingParent _ (isEntryName_stagingName k).slash_not_mem)

/-- The staging directory has a name that was free. -/
theorem exists_stagingPath_eq (s : Store) (here : Text) (hstage : CanStage s) :
    ∃ fresh : Text, Path.IsEntryName fresh ∧ (∀ c ∈ fresh, Name.isNameable c = true) ∧
      Name.byteLength fresh = 25 ∧ stagingPath here s = Path.ofNames (stagedAt fresh) ∧
      s.get? (stagedAt fresh) = none := by
  obtain ⟨hat, hfew⟩ := hstage
  have hnames := (Store.names_eq_ok_iff s here _ _).2 ⟨_, locate_stagingParent s here, hat, rfl⟩
  obtain ⟨k, hk, hpath, hnew⟩ := exists_stagingPath_eq_stagingName s here _ (by rw [hnames])
  refine ⟨stagingName k, isEntryName_stagingName k, isNameable_of_mem_stagingName k,
    byteLength_stagingName k (Nat.lt_of_le_of_lt hk hfew), hpath, ?_⟩
  cases he : s.get? (stagedAt (stagingName k)) with
  | none => rfl
  | some e => exact absurd (Store.mem_children_of_get?_eq_some s _ _ e he) hnew

theorem map_zip_map {α β γ : Type} (f : α → β) (g : α × β → γ) (as : List α) :
    (as.zip (as.map f)).map g = as.map fun a => g (a, f a) := by
  induction as with
  | nil => rfl
  | cons a as ih => exact congrArg (g (a, f a) :: ·) ih

theorem mem_zip_map_iff {α β : Type} (f : α → β) (as : List α) (a : α) (b : β) :
    (a, b) ∈ as.zip (as.map f) ↔ a ∈ as ∧ b = f a := by
  have hzip := map_zip_map f id as
  rw [List.map_id] at hzip
  rw [hzip, List.mem_map]
  constructor
  · rintro ⟨a', ha, hp⟩
    obtain ⟨rfl, rfl⟩ := Prod.mk.inj hp
    exact ⟨ha, rfl⟩
  · rintro ⟨ha, rfl⟩
    exact ⟨a, ha, rfl⟩

theorem locate_set_staging (s : Store) (here fresh : Text) (hs : s.IsTree) (hstage : CanStage s)
    (hfresh : Path.IsEntryName fresh) (hnameable : ∀ c ∈ fresh, Name.isNameable c = true)
    (hbytes : Name.byteLength fresh = 25) (hfree : s.get? (stagedAt fresh) = none) :
    (s.set (stagedAt fresh) (.directory stagingMode)).locate here (Path.ofNames (stagedAt fresh)) =
        .ok (stagedAt fresh) ∧
      ∀ name, (s.set (stagedAt fresh) (.directory stagingMode)).get? (stagedAt fresh ++ [name]) =
        none := by
  constructor
  · rw [← join_stagingParent fresh hfresh.slash_not_mem]
    have hparent : Name.byteLength stagingParent = 4 := by decide
    have hlimit : Store.pathLimit = 4095 := rfl
    have hshort : Store.nameLimit = 255 := rfl
    have hpath := (Path.byteLength_join stagingParent fresh (by decide) hfresh.slash_not_mem).2
    exact Store.locate_join _ here stagingParent fresh _ hfresh hnameable (by omega) (by omega)
      (locate_stagingParent _ here)
      (Store.isDirectoryAt_set_directory s _ _ _ hstage.isDirectoryAt)
  · intro name
    rw [Store.get?_set_of_ne s _ _ _ (by simp)]
    exact get?_append_eq_none_of_isTree s hs _ hfree [name]

theorem byteLength_ofNames_stagedAt (fresh : Text) :
    Name.byteLength (Path.ofNames (stagedAt fresh)) = 5 + Name.byteLength fresh := by
  have hprefix : Name.byteLength (stagingParent ++ [Path.slash]) = 5 := by decide
  have hofNames : Path.ofNames (stagedAt fresh) = stagingParent ++ [Path.slash] ++ fresh := by
    rw [stagedAt, Path.ofNames_append_singleton _ _ (by decide), ofNames_stagingParent]
    simp
  rw [hofNames, Name.byteLength_append, hprefix]

structure IsEmptyAt (s : Store) (here : Text) (names : Location) : Prop where
  isEntryName : ∀ n ∈ names, Path.IsEntryName n
  byteLength_le : Name.byteLength (Path.ofNames names) + 256 ≤ Store.pathLimit
  locate_eq : s.locate here (Path.ofNames names) = .ok names
  isDirectoryAt : s.IsDirectoryAt names
  get?_eq_none : ∀ name, s.get? (names ++ [name]) = none

theorem IsEmptyAt.children_eq {s : Store} {here : Text} {names : Location}
    (h : IsEmptyAt s here names) : s.children names = [] := by
  refine List.eq_nil_iff_forall_not_mem.2 fun name hname => ?_
  obtain ⟨e, he⟩ := Store.exists_of_mem_children _ _ _ hname
  rw [h.get?_eq_none name] at he
  exact nomatch he

theorem exists_isEmptyAt_staging (s : Store) (here : Text) (hs : s.IsTree) (hstage : CanStage s) :
    ∃ names, stagingPath here s = Path.ofNames names ∧ locationOf (stagingPath here s) = names ∧
      names ≠ [] ∧ s.get? names = none ∧
      IsEmptyAt (s.set names (.directory stagingMode)) here names := by
  obtain ⟨fresh, hfresh, hnameable, hbytes, hpath, hfree⟩ := exists_stagingPath_eq s here hstage
  have hne : stagedAt fresh ≠ [] := by simp [stagedAt]
  have hentries : ∀ n ∈ stagedAt fresh, Path.IsEntryName n :=
    List.forall_mem_append.2 ⟨isEntryName_stagingParent, List.forall_mem_singleton.2 hfresh⟩
  have hlimit : Store.pathLimit = 4095 := rfl
  obtain ⟨hlocate, hempty⟩ :=
    locate_set_staging s here fresh hs hstage hfresh hnameable hbytes hfree
  refine ⟨stagedAt fresh, hpath, ?_, hne, hfree, hentries, ?_, hlocate,
    ⟨stagingMode, Store.get?_set_self _ _ _ hne⟩, hempty⟩
  · rw [hpath]
    exact Path.segments_ofNames _ hentries
  · rw [byteLength_ofNames_stagedAt]
    omega

theorem isStaged_of_emitted (s s' : Store) (hs : s.IsTree) (mask : Mode) (f : Formatting)
    (here directory : Text) (l : Location) (as : List Artifact) (hl : l ≠ [])
    (hdir : directory ≠ []) (hnames : ∀ a ∈ as, Path.IsEntryName a.name)
    (hfree : s.get? l = none)
    (hlocate : (s.set l (.directory stagingMode)).locate here directory = .ok l)
    (h : Artifact.Emitted mask f here directory as (s.set l (.directory stagingMode)) s') :
    IsStaged l s s' := by
  refine (isStaged_set s hs l hl hfree).of_forall_ne fun k hk => h.get?_eq k fun a ha hk' => ?_
  obtain ⟨parent, rfl, hparent, -⟩ :=
    Store.exists_of_locate_join _ here directory a.name k hdir (hnames a ha) hk'
  obtain rfl := Except.ok.inj (hlocate.symm.trans hparent)
  exact hk a.name rfl

/-- With the entries that were added the store from before comes back. -/
theorem get?_eraseTree_of_besides (l : Location) (s s' : Store) (h : Besides l s s')
    (k : Location) : (s'.eraseTree l).get? k = s.get? k := by
  by_cases hk : k = []
  · rw [hk, Store.get?_nil, Store.get?_nil]
  · rw [Store.get?_eraseTree s' l k hk]
    by_cases hprefix : l <+: k
    · rw [if_pos (List.isPrefixOf_iff_prefix.2 hprefix), h.free k hprefix]
    · rw [if_neg (by rwa [List.isPrefixOf_iff_prefix]), h.same k hprefix]

/-- Whether an action formats the files at the paths it is given, and comes to an end. -/
def FormatsFiles (here : Text) (f : Formatting) (format : List Text → Action Unit) : Prop :=
  ∀ paths w, w.store.LeadToFiles here paths → ∃ w', (format paths).runOn w = (.ok (), w') ∧
    Store.Formatted f here paths w.store w'.store

def compareStaged (host : Host) (directory staging : Text) (format : List Text → Action Unit)
    (as : List Artifact) : Action (List (Text × Standing)) := do
  Action.record .debug Source.verification ("Staging artifacts for verification in " ++ staging)
  let staged ← stage host staging as
  format staged
  compareAll host directory (as.zip staged)

/-- What verification does, however what it does in its staging directory ends. -/
theorem runOn_verify (host : Host) (directory : Text) (format : List Text → Action Unit)
    (as : List Artifact) (w w' : Workspace) (result : Except Failure (List (Text × Standing)))
    (h : (compareStaged host directory (stagingPath host.here w.store) format as).runOn
      { w with
        store := w.store.set (locationOf (stagingPath host.here w.store))
          (.directory stagingMode) } = (result, w')) :
    (verify host directory format as).runOn w = (result.map (ofStandings directory),
      { w' with store := w'.store.eraseTree (locationOf (stagingPath host.here w.store)) }) := by
  have hinspect : (Action.inspect (stagingPath host.here)).runOn w =
      (.ok (stagingPath host.here w.store), w) := rfl
  have hcapture := Action.runOn_capture
    (compareStaged host directory (stagingPath host.here w.store) format as)
    { w with
      store := w.store.set (locationOf (stagingPath host.here w.store)) (.directory stagingMode) }
  rw [h] at hcapture
  unfold compareStaged at hcapture
  rw [verify, Action.runOn_bind_of_ok _ _ w w _ hinspect,
    Action.runOn_bind_of_ok _ _ w _ () (Action.runOn_modify _ w),
    Action.runOn_bind_of_ok _ _ _ w' _ hcapture,
    Action.runOn_bind_of_ok _ _ w' _ () (Action.runOn_modify _ w')]
  cases result <;> rfl

/-- The standings of artifacts, given the committed bytes and what formatting makes of fresh
ones. -/
def standings (f : Formatting) (committed : Text → Option Bytes) (as : List Artifact) :
    List (Text × Standing) :=
  as.map fun a =>
    (a.name, standing (committed a.name) (a.encode.toOption.map fun data => (f a.name data).1))

theorem standings_keep (committed : Text → Option Bytes) (as : List Artifact) :
    standings .keep committed as =
      as.map fun a => (a.name, standing (committed a.name) a.encode.toOption) := by
  refine List.map_congr_left fun a _ => ?_
  cases a.encode <;> rfl

theorem ok_ofStandings_iff (directory : Text) (ss : List (Text × Standing)) :
    (ofStandings directory ss).ok = true ↔ ∀ s ∈ ss, s.2 = .same := by
  simp only [ofStandings, Bool.and_eq_true, List.isEmpty_iff, List.map_eq_nil_iff,
    List.filter_eq_nil_iff, decide_eq_true_eq]
  constructor
  · intro h s hs
    cases hstanding : s.2 with
    | same => rfl
    | different => exact absurd hstanding (h.1 s hs)
    | absent => exact absurd hstanding (h.2 s hs)
  · intro h
    refine ⟨fun s hs hdifferent => ?_, fun s hs habsent => ?_⟩
    · rw [h s hs] at hdifferent
      exact nomatch hdifferent
    · rw [h s hs] at habsent
      exact nomatch habsent

variable (host : Host) (directory : Text) (f : Formatting) (format : List Text → Action Unit)
variable (hformat : FormatsFiles host.here f format) (as : List Artifact)
variable (hnodup : (as.map Artifact.name).Nodup) (hpermissive : host.Permissive)
include hformat hnodup hpermissive

/-- The formatted copies are compared with the committed files as they were before. -/
theorem exists_runOn_compareStaged (staging : Text) (l : Location) (s : Store) (hs : s.IsTree)
    (hdir : s.isDirectory host.here directory = true) (hnames : ∀ a ∈ as, Path.IsEntryName a.name)
    (hl : l ≠ []) (hfree : s.get? l = none) (hstaging : staging ≠ []) (w w₂ : Workspace)
    (hstore : w.store = s.set l (.directory stagingMode))
    (hlocate : w.store.locate host.here staging = .ok l)
    (hwritten : Artifact.Written host.umask host.here staging as w.store w₂.store)
    (hrun : (stage host staging as).runOn
      { w with journal := w.journal ++ [⟨.debug, Source.verification,
        "Staging artifacts for verification in " ++ staging⟩] } =
        (.ok (as.map fun a => Path.join staging a.name), w₂)) :
    ∃ w', (compareStaged host directory staging format as).runOn w =
        (.ok (standings f (fun name => s.content? host.here (Path.join directory name)) as), w') ∧
      Besides l s w'.store := by
  have hkeep := hwritten.emitted hstaging hnames hnodup
  have hlead := hkeep.leadToFiles hstaging hnames hnodup (fun a => Path.join staging a.name)
    fun _ _ _ => Iff.rfl
  obtain ⟨w₃, hformatted, heffect⟩ := hformat _ w₂ hlead
  have hemitted := hkeep.of_formatted hstaging hnames (fun a => Path.join staging a.name)
    (fun a ha => Path.base_join staging a.name hstaging (hnames a ha).slash_not_mem)
    (fun _ _ _ => Iff.rfl) heffect
  rw [hstore] at hlocate hemitted
  have hstaged := isStaged_of_emitted s w₃.store hs host.umask f host.here staging l as hl hstaging
    hnames hfree hlocate hemitted
  obtain ⟨w', hcompare, hsame⟩ := (reads_compareAll host directory
    (as.zip (as.map fun a => Path.join staging a.name))).exists_runOn_eq _ _ w₃
  rw [comparedAll_of_readRefusal_eq_none host directory _ _
    (fun p _ => hpermissive.readRefusal _) fun p _ => hpermissive.readRefusal _] at hcompare
  refine ⟨w', ?_, hsame ▸ hstaged.toBesides⟩
  rw [compareStaged, Action.runOn_bind_of_ok _ _ w _ () (Action.runOn_record _ _ _ w),
    Action.runOn_bind_of_ok _ _ _ w₂ _ hrun,
    Action.runOn_bind_of_ok _ _ w₂ w₃ () hformatted, hcompare, map_zip_map]
  refine congrArg (fun ss => (Except.ok ss, w')) (List.map_congr_left fun a ha => ?_)
  obtain ⟨data, hdata, hcontent⟩ := hemitted.isHeld hstaging hnames a ha
  rw [content?_of_isStaged l s w₃.store hstaged host.here directory a.name (hnames a ha) hdir,
    hcontent, hdata]
  rfl

/-- Verification compares the bytes of every committed file with those of its artifact, formatted,
and leaves no trace in the files. -/
theorem exists_runOn_verify (w : Workspace) (hhere : Path.isAbsolute host.here = true)
    (hs : w.store.IsTree) (hstage : CanStage w.store)
    (hdir : w.store.isDirectory host.here directory = true)
    (has : ∀ a ∈ as, IsStageable a.name ∧ ∃ data, a.encode = .ok data) :
    ∃ w', (verify host directory format as).runOn w =
        (.ok (ofStandings directory (standings f
          (fun name => w.store.content? host.here (Path.join directory name)) as)), w') ∧
      ∀ k, w'.store.get? k = w.store.get? k := by
  obtain ⟨names, hpath, hlocation, hne, hfree, hempty⟩ :=
    exists_isEmptyAt_staging w.store host.here hs hstage
  have hpathne : Path.ofNames names ≠ [] := List.cons_ne_nil _ _
  have hcan := fun a ha => canWrite_of_fitsAmong names hempty.isEntryName host.here hhere
    hempty.byteLength_le _ hempty.locate_eq hempty.isDirectoryAt 0 (by rw [hempty.children_eq]; rfl)
    a ((has a ha).1.fitsAmong 0 (by decide)) (has a ha).2
    (Store.not_isDirectoryAt_of_get?_eq_none _ _ (hempty.get?_eq_none a.name))
  -- What happens inside the staging directory is a sequence of writes into it.
  obtain ⟨w₂, hrun, hwritten⟩ := exists_runOn_stage host (Path.ofNames names) hhere hpathne
    as (fun a _ => hpermissive.refusals _) (fun a ha => (has a ha).1.toIsPlain)
    { w with
      store := w.store.set names (.directory stagingMode)
      journal := w.journal ++ [⟨.debug, Source.verification,
        "Staging artifacts for verification in " ++ Path.ofNames names⟩] } hcan
  obtain ⟨w₃, hcompare, hbesides⟩ := exists_runOn_compareStaged host directory f format hformat as
    hnodup hpermissive (Path.ofNames names) names w.store hs hdir
    (fun a ha => (has a ha).1.isEntryName) hne hfree hpathne
    { w with store := w.store.set names (.directory stagingMode) } w₂ rfl
    hempty.locate_eq hwritten hrun
  rw [← hpath, ← hlocation] at hcompare
  refine ⟨_, runOn_verify host directory format as w w₃ _ hcompare, fun k => ?_⟩
  rw [hlocation]
  exact get?_eraseTree_of_besides _ _ _ hbesides k

end Verification

end LocaleKeys
