import LocaleKeys.Proofs.Artifact.Staging
import LocaleKeys.Proofs.Run.Emission

/-!
# What verification finds out

The outcome sorts the names of the artifacts, in their order, by what is committed under them and by
their fresh copies (`Classifies`), whatever these are (`classifies_ofStandings`). What is compared
are the committed files as they were before, since the way to them does not lead through the staging
directory (`IsApart`), and the staged files as the hook leaves them (`describes_of_verify_eq_ok`).
An outcome there is if every name leaves room for that of a temporary file, which may itself be the
name of an artifact (`exists_runOn_stage_of_fitsAmong`); a name that is too long for that cannot be
verified (`not_verified_with_long_name`).
-/

namespace LocaleKeys

namespace Verification

/-- Whether an outcome sorts the names of artifacts by what is committed under them and by their
fresh copies. -/
structure Classifies (v : Verification) (as : List Artifact) (committed : Text → Option Bytes)
    (fresh : Artifact → Option Bytes) : Prop where
  checked_eq : v.checked = as.map Artifact.name
  missing_eq : v.missing = (as.filter fun a => committed a.name = none).map Artifact.name
  mismatched_eq : v.mismatched =
    (as.filter fun a => committed a.name ≠ none ∧ committed a.name ≠ fresh a).map Artifact.name
  disjoint : v.mismatched.Disjoint v.missing
  ok_iff : v.ok = true ↔ v.mismatched = [] ∧ v.missing = []
  /-- The message has a group for each of the two kinds, with all names of its kind. -/
  differs : ∀ n ∈ v.mismatched, n <:+: Text.join ", " v.mismatched ∧
    ("differs: " ++ Text.join ", " v.mismatched : Text) <:+: v.message
  misses : ∀ n ∈ v.missing, n <:+: Text.join ", " v.missing ∧
    ("missing: " ++ Text.join ", " v.missing : Text) <:+: v.message

theorem standing_eq_absent_iff (committed fresh : Option Bytes) :
    standing committed fresh = .absent ↔ committed = none := by
  cases committed with
  | none => simp [standing]
  | some bytes =>
      rw [standing]
      split <;> simp

theorem standing_eq_different_iff (committed fresh : Option Bytes) :
    standing committed fresh = .different ↔ committed ≠ none ∧ committed ≠ fresh := by
  cases committed with
  | none => simp [standing]
  | some bytes =>
      rw [standing]
      split
      · next h => simp [h]
      · next h => simp [h]

theorem isInfix_of_mem_groups (opening closing : Text) (groups : List Text) (g : Text)
    (hg : g ∈ groups) : g <:+: opening ++ Text.join "; " groups ++ closing :=
  (Text.isInfix_join_of_mem _ groups g hg).trans
    ((List.suffix_append _ _).isInfix.trans (List.prefix_append _ _).isInfix)

theorem isInfix_describe_mismatched (directory : Text) (mismatched missing : List Text)
    (h : mismatched ≠ []) :
    ("differs: " ++ Text.join ", " mismatched : Text) <:+:
      describe directory mismatched missing := by
  have hempty : mismatched.isEmpty = false := by simpa using h
  rw [describe, hempty, Bool.false_and, if_neg Bool.false_ne_true]
  refine isInfix_of_mem_groups _ _ _ _ (List.mem_append_left _ ?_)
  simp only [hempty, Bool.false_eq_true, if_false]
  exact List.mem_singleton_self _

theorem isInfix_describe_missing (directory : Text) (mismatched missing : List Text)
    (h : missing ≠ []) :
    ("missing: " ++ Text.join ", " missing : Text) <:+:
      describe directory mismatched missing := by
  have hempty : missing.isEmpty = false := by simpa using h
  rw [describe, hempty, Bool.and_false, if_neg Bool.false_ne_true]
  refine isInfix_of_mem_groups _ _ _ _ (List.mem_append_right _ ?_)
  simp only [hempty, Bool.false_eq_true, if_false]
  exact List.mem_singleton_self _

theorem map_filter_standings (st : Artifact → Standing) (as : List Artifact) (x : Standing) :
    ((as.map fun a => (a.name, st a)).filter (·.2 = x)).map (·.1) =
      (as.filter fun a => st a = x).map Artifact.name := by
  rw [List.filter_map, List.map_map]
  rfl

/-- Whatever is compared, the outcome sorts the names by it. -/
theorem classifies_ofStandings (directory : Text) (as : List Artifact)
    (committed : Text → Option Bytes) (fresh : Artifact → Option Bytes) :
    Classifies (ofStandings directory
      (as.map fun a => (a.name, standing (committed a.name) (fresh a)))) as committed fresh where
  checked_eq := by
    rw [ofStandings, List.map_map]
    rfl
  missing_eq := by
    simp only [ofStandings, map_filter_standings, standing_eq_absent_iff]
  mismatched_eq := by
    simp only [ofStandings, map_filter_standings, standing_eq_different_iff]
  disjoint := by
    simp only [ofStandings, map_filter_standings, standing_eq_absent_iff,
      standing_eq_different_iff]
    intro n hn hn'
    obtain ⟨a, ha, rfl⟩ := List.mem_map.1 hn
    obtain ⟨b, hb, hname⟩ := List.mem_map.1 hn'
    have hcommitted := of_decide_eq_true (List.mem_filter.1 ha).2
    have hnone := of_decide_eq_true (List.mem_filter.1 hb).2
    rw [hname] at hnone
    exact hcommitted.1 hnone
  ok_iff := by
    rw [ofStandings, Bool.and_eq_true, List.isEmpty_iff, List.isEmpty_iff]
  differs n hn :=
    ⟨Text.isInfix_join_of_mem _ _ n hn,
      isInfix_describe_mismatched directory _ _ (List.ne_nil_of_mem hn)⟩
  misses n hn :=
    ⟨Text.isInfix_join_of_mem _ _ n hn,
      isInfix_describe_missing directory _ _ (List.ne_nil_of_mem hn)⟩

theorem Classifies.congr {v : Verification} {as : List Artifact} {committed : Text → Option Bytes}
    {fresh fresh' : Artifact → Option Bytes} (h : Classifies v as committed fresh)
    (hsame : ∀ a ∈ as, fresh a = fresh' a) : Classifies v as committed fresh' where
  checked_eq := h.checked_eq
  missing_eq := h.missing_eq
  mismatched_eq := by
    rw [h.mismatched_eq]
    refine congrArg (List.map Artifact.name) (List.filter_congr fun a ha => ?_)
    rw [hsame a ha]
  disjoint := h.disjoint
  ok_iff := h.ok_iff
  differs := h.differs
  misses := h.misses

/-- Whether the way to a directory does not lead through the staging directory that verification
is going to make: the directory is there before, or no part of its path has that name. -/
def IsApart (here directory : Text) (s : Store) : Prop :=
  s.isDirectory here directory = true ∨
    Path.base (stagingPath here s) ∉ Store.origin here directory ++ Text.split Path.slash directory

theorem exists_split_join_subset (here dir name : Text) (hname : Path.slash ∉ name) :
    ∃ above, Text.split Path.slash (Path.join dir name) = above ++ [name] ∧
      above ⊆ Text.split Path.slash dir ∧
      Store.origin here (Path.join dir name) = Store.origin here dir := by
  by_cases hdir : dir = []
  · have hrelative := Path.isAbsolute_eq_false_of_not_mem name hname
    have hjoin : Path.join dir name = name := by
      rw [hdir, Path.join, hrelative]
      rfl
    refine ⟨[], ?_, List.nil_subset _, ?_⟩
    · rw [hjoin, Text.split_of_not_mem _ name hname, List.nil_append]
    · rw [hjoin, hdir, Store.origin, Store.origin, hrelative]
      rfl
  · obtain ⟨above, hsplit, habove⟩ := Path.exists_split_join dir name hdir hname
    refine ⟨above, hsplit, ?_, Store.origin_join here dir name hdir hname⟩
    rcases habove with habove | habove
    · rw [habove]
      exact List.Subset.refl _
    · rw [habove]
      exact List.subset_append_left _ _

section Apart

variable (s s' : Store) (parent : Location) (fresh : Text)
variable (h : Besides (parent ++ [fresh]) s s')
include h

/-- A way on which the name of the new directory does not come up leads where it led. -/
theorem walk_eq_of_besides (names : List Text) (hnames : fresh ∉ names) (k : Location)
    (hk : ¬ parent ++ [fresh] <+: k) :
    s'.walk k names = s.walk k names ∧
      ∀ m, s.walk k names = .ok m → ¬ parent ++ [fresh] <+: m := by
  induction names generalizing k with
  | nil => exact ⟨rfl, fun m hm => Except.ok.inj hm ▸ hk⟩
  | cons name names ih =>
      obtain ⟨hname, hnames⟩ := not_or.1 (List.mem_cons.not.1 hnames)
      have hup : ¬ parent ++ [fresh] <+: k.dropLast := fun hbelow =>
        hk (hbelow.trans (List.dropLast_prefix k))
      have hdown : ¬ parent ++ [fresh] <+: k ++ [name] := fun hbelow => by
        rcases List.prefix_concat_iff.1 hbelow with heq | hbelow
        · exact hname (List.cons.inj (List.append_inj' heq rfl).2).1
        · exact hk hbelow
      rw [Store.walk, Store.walk, h.same k hk]
      rcases s.get? k with _ | ⟨bytes, mode⟩ | mode
      · exact ⟨rfl, fun m hm => by cases hm⟩
      · exact ⟨rfl, fun m hm => by cases hm⟩
      · dsimp only
        split
        · exact ih hnames k hk
        split
        · exact ih hnames _ hup
        split
        · exact ⟨rfl, fun m hm => by cases hm⟩
        · exact ih hnames _ hdown

variable (hfresh : s'.get? (parent ++ [fresh]) = some (.directory stagingMode))
include hfresh

theorem get?_eq_file_iff_of_besides (k : Location) (hk : ¬ parent ++ [fresh] <+: k) (name : Text)
    (bytes : Bytes) (mode : Mode) :
    s'.get? (k ++ [name]) = some (.file bytes mode) ↔
      s.get? (k ++ [name]) = some (.file bytes mode) := by
  by_cases hbelow : parent ++ [fresh] <+: k ++ [name]
  · have heq := (List.prefix_concat_iff.1 hbelow).resolve_right hk
    rw [h.free _ hbelow, ← heq, hfresh]
    simp
  · rw [h.same _ hbelow]

theorem content?_eq_of_besides (here dir name : Text) (hname : Path.IsEntryName name)
    (hdir : fresh ∉ Store.origin here dir ++ Text.split Path.slash dir) :
    s'.content? here (Path.join dir name) = s.content? here (Path.join dir name) := by
  obtain ⟨horigin, hparts⟩ := not_or.1 (List.mem_append.not.1 hdir)
  obtain ⟨above, hsplit, habove, hstart⟩ :=
    exists_split_join_subset here dir name hname.slash_not_mem
  have hroot : ¬ parent ++ [fresh] <+: Store.origin here dir := fun hbelow =>
    horigin (hbelow.subset (List.mem_append_right _ (List.mem_singleton_self _)))
  obtain ⟨hwalk, hbeside⟩ := walk_eq_of_besides s s' parent fresh h above
    (fun hmem => hparts (habove hmem)) (Store.origin here dir) hroot
  refine Option.ext fun bytes => ?_
  rw [Store.content?_eq_some_iff, Store.content?_eq_some_iff]
  refine exists_congr fun l => exists_congr fun mode => ?_
  rw [Store.locate_eq_ok_iff, Store.locate_eq_ok_iff, hstart, hsplit, Store.walk_append_eq_ok_iff,
    Store.walk_append_eq_ok_iff, hwalk]
  simp only [Store.walk_entry_eq_ok_iff _ _ _ name hname]
  have hdirectory : ∀ k, s.walk (Store.origin here dir) above = .ok k →
      (s'.IsDirectoryAt k ↔ s.IsDirectoryAt k) := fun k hk => by
    rw [Store.IsDirectoryAt, Store.IsDirectoryAt, h.same k (hbeside k hk)]
  have hfile := fun k hk => get?_eq_file_iff_of_besides s s' parent fresh h hfresh k
    (hbeside k hk) name bytes mode
  constructor
  · rintro ⟨⟨hnames, hne, hlength, k, hk, hat, hshort, rfl⟩, hget⟩
    exact ⟨⟨hnames, hne, hlength, k, hk, (hdirectory k hk).1 hat, hshort, rfl⟩,
      (hfile k hk).1 hget⟩
  · rintro ⟨⟨hnames, hne, hlength, k, hk, hat, hshort, rfl⟩, hget⟩
    exact ⟨⟨hnames, hne, hlength, k, hk, (hdirectory k hk).2 hat, hshort, rfl⟩,
      (hfile k hk).2 hget⟩

end Apart

theorem locationOf_stagingPath (here : Text) (s : Store) :
    locationOf (stagingPath here s) = stagedAt (Path.base (stagingPath here s)) := by
  obtain ⟨k, -, hpath, -⟩ := exists_stagingPath_eq_stagingName s here _ rfl
  have hname := isEntryName_stagingName k
  have hbase : Path.base (stagingPath here s) = stagingName k := by
    rw [hpath, ← join_stagingParent _ hname.slash_not_mem,
      Path.base_join _ _ (by decide) hname.slash_not_mem]
  rw [hbase, hpath]
  exact Path.segments_ofNames _ (List.forall_mem_append.2
    ⟨isEntryName_stagingParent, List.forall_mem_singleton.2 hname⟩)

theorem content?_of_isApart (s s' : Store) (here directory name : Text)
    (h : IsStaged (locationOf (stagingPath here s)) s s') (hapart : IsApart here directory s)
    (hname : Path.IsEntryName name) :
    s'.content? here (Path.join directory name) = s.content? here (Path.join directory name) := by
  rcases hapart with hdir | hapart
  · exact content?_of_isStaged _ s s' h here directory name hname hdir
  · rw [locationOf_stagingPath] at h
    exact content?_eq_of_besides s s' _ _ h.toBesides h.get?_eq here directory name hname hapart

section Verify

variable (host : Host) (directory : Text) (format : List Text → Action Unit) (as : List Artifact)

/-- Whether an outcome is that of the comparison of what is committed with the staged files, which
have held the bytes of the artifacts, as the hook has left them. -/
def Describes (w : Workspace) (v : Verification) : Prop :=
  ∃ w₁ w₂, IsStaged (locationOf (stagingPath host.here w.store)) w.store w₁.store ∧
    (∀ a ∈ as, w₁.store.content? host.here
      (Path.join (stagingPath host.here w.store) a.name) = a.encode.toOption) ∧
    (format (as.map fun a => Path.join (stagingPath host.here w.store) a.name)).runOn w₁ =
      (.ok (), w₂) ∧
    Classifies v as (fun n => w.store.content? host.here (Path.join directory n)) fun a =>
      w₂.store.content? host.here (Path.join (stagingPath host.here w.store) a.name)

/-- Whether a hook comes to an end without a failure. -/
def Ends (here : Text) (format : List Text → Action Unit) : Prop :=
  ∀ paths w, w.store.LeadToFiles here paths → ∃ w', (format paths).runOn w = (.ok (), w')

variable (hhere : Path.isAbsolute host.here = true)
variable (hnames : ∀ a ∈ as, Path.IsEntryName a.name)
variable (hnodup : (as.map Artifact.name).Nodup)
variable (htouches : TouchesOnly host.here format)
include hhere hnames hnodup htouches

theorem describes_of_verify_eq_ok (w w' : Workspace) (v : Verification) (hs : w.store.IsTree)
    (hapart : IsApart host.here directory w.store)
    (h : (verify host directory format as).runOn w = (.ok v, w')) :
    Describes host directory format as w v := by
  have hne := stagingPath_ne_nil host.here w.store
  have habsolute := isAbsolute_stagingPath host.here w.store
  rcases hrun : (compareStaged host directory (stagingPath host.here w.store) format as).runOn
      { w with
        store := w.store.set (locationOf (stagingPath host.here w.store))
          (.directory stagingMode) } with ⟨e | standings, w₄⟩
  · rw [runOn_verify host directory format as w w₄ _ hrun] at h
    exact nomatch (Prod.mk.inj h).1
  rw [runOn_verify host directory format as w w₄ _ hrun] at h
  obtain rfl := Except.ok.inj (Prod.mk.inj h).1
  obtain ⟨w₀, w₁, w₂, -, -, hwritten, hformat, -, rfl⟩ := exists_of_compareStaged_eq_ok host
    directory _ hhere hne as hnames format _ w₄ standings hrun
  have hbegun := isStaged_stagingPath w.store host.here hs
  have hended := isStaged_format host _ hhere habsolute as hnames hnodup format htouches w.store
    _ w₁ hwritten hbegun
  rw [hformat] at hended
  refine ⟨w₁, w₂, hwritten.isStaged hhere habsolute hnames hbegun, fun a ha => ?_, hformat, ?_⟩
  · obtain ⟨data, hdata, hcontent⟩ :=
      (hwritten.emitted hne hnames hnodup).isHeld hne hnames a ha
    rw [hcontent, hdata]
    rfl
  · have hcommitted := fun a ha => content?_of_isApart w.store w₂.store host.here directory
      a.name hended hapart (hnames a ha)
    rw [List.map_congr_left fun a ha => by rw [hcommitted a ha]]
    exact classifies_ofStandings directory as
      (fun n => w.store.content? host.here (Path.join directory n)) fun a =>
        w₂.store.content? host.here (Path.join (stagingPath host.here w.store) a.name)

end Verify

section Stage

variable (host : Host) (hhere : Path.isAbsolute host.here = true) (hpermissive : host.Permissive)
include hhere hpermissive

/-- Artifacts that fit in a directory can be staged in it one after the other, also if some of them
have the names of temporary files of others. -/
theorem exists_runOn_stage_of_fitsAmong (names : List Text)
    (hentries : ∀ n ∈ names, Path.IsEntryName n)
    (hlength : Name.byteLength (Path.ofNames names) + 256 ≤ Store.pathLimit) (n : Nat)
    (as : List Artifact) (has : ∀ a ∈ as, FitsAmong n a.name ∧ ∃ data, a.encode = .ok data)
    (w : Workspace) (hlocate : w.store.locate host.here (Path.ofNames names) = .ok names)
    (hat : w.store.IsDirectoryAt names)
    (hfiles : ∀ name, ¬ w.store.IsDirectoryAt (names ++ [name]))
    (hfew : (w.store.children names).length + as.length ≤ n) :
    ∃ w', (stage host (Path.ofNames names) as).runOn w =
      (.ok (as.map fun a => Path.join (Path.ofNames names) a.name), w') := by
  induction as generalizing w with
  | nil => exact ⟨w, rfl⟩
  | cons a as ih =>
      obtain ⟨⟨hfits, hencode⟩, has⟩ := List.forall_mem_cons.1 has
      rw [List.length_cons] at hfew
      have hcan := canWrite_of_fitsAmong names hentries host.here hhere hlength w.store hlocate hat
        n (by omega) a hfits hencode (hfiles a.name)
      have hne : Path.ofNames names ≠ [] := List.cons_ne_nil _ _
      obtain ⟨parent, data, w₁, hdata, -, -, hfile, hput, hset⟩ :=
        Artifact.exists_runOn_put_of_canWrite host (Path.ofNames names) hhere hne a
          (hpermissive.refusals _) hfits.isEntryName w hcan
      have hsame := Store.sameDirectories_set_file w.store (parent ++ [a.name]) data
        (w.store.modeUnder host.umask host.here (Path.join (Path.ofNames names) a.name)) (by simp)
          hfile
      -- Whatever its name is, the artifact adds at most one entry to the directory.
      have hmore := Store.length_children_set_le w.store (parent ++ [a.name]) names
        (.file data (w.store.modeUnder host.umask host.here
          (Path.join (Path.ofNames names) a.name)))
      rw [← hset] at hsame hmore
      obtain ⟨w₂, hstage⟩ := ih has w₁ ((hsame.locate_iff _ _ _).2 hlocate)
        ((hsame.isDirectoryAt_iff _).2 hat)
        (fun name hdirectory => hfiles name ((hsame.isDirectoryAt_iff _).1 hdirectory)) (by omega)
      refine ⟨w₂, ?_⟩
      rw [stage, Action.runOn_bind_of_ok _ _ w w data (Artifact.runOn_encode_of_ok a data w hdata),
        Action.runOn_bind_of_ok _ _ w w₁ () hput, Action.runOn_bind_of_ok _ _ w₁ w₂ _ hstage]
      rfl

/-- If all artifacts fit and the hook comes to an end, verification does. -/
theorem exists_runOn_verify_of_fitsAmong (directory : Text) (format : List Text → Action Unit)
    (hends : Ends host.here format) (as : List Artifact) (hnodup : (as.map Artifact.name).Nodup)
    (has : ∀ a ∈ as, FitsAmong as.length a.name ∧ ∃ data, a.encode = .ok data) (w : Workspace)
    (hs : w.store.IsTree) (hstage : CanStage w.store) :
    ∃ v w', (verify host directory format as).runOn w = (.ok v, w') := by
  obtain ⟨names, hpath, hlocation, hne, hfree, hempty⟩ :=
    exists_isEmptyAt_staging w.store host.here hs hstage
  have hpathne : Path.ofNames names ≠ [] := List.cons_ne_nil _ _
  have hnames := fun a ha => (has a ha).1.isEntryName
  obtain ⟨w₁, hrun⟩ := exists_runOn_stage_of_fitsAmong host hhere hpermissive names
    hempty.isEntryName
    hempty.byteLength_le as.length as has
    { w with
      store := w.store.set names (.directory stagingMode)
      journal := w.journal ++ [⟨.debug, Source.verification,
        "Staging artifacts for verification in " ++ Path.ofNames names⟩] } hempty.locate_eq
    hempty.isDirectoryAt
    (fun name => Store.not_isDirectoryAt_of_get?_eq_none _ _ (hempty.get?_eq_none name))
    (by rw [hempty.children_eq]; simp)
  obtain ⟨-, hwritten⟩ := written_of_stage_eq_ok host _ hhere hpathne as _ _ w₁ hnames hrun
  have hlead := (hwritten.emitted hpathne hnames hnodup).leadToFiles hpathne hnames hnodup
    (fun a => Path.join (Path.ofNames names) a.name) fun _ _ _ => Iff.rfl
  obtain ⟨w₂, hformatted⟩ := hends _ w₁ hlead
  obtain ⟨w₃, hcompare, -⟩ := (reads_compareAll host directory
    (as.zip (as.map fun a => Path.join (Path.ofNames names) a.name))).exists_runOn_eq _ _ w₂
  obtain ⟨standings, hstandings⟩ : ∃ standings,
      (compareStaged host directory (stagingPath host.here w.store) format as).runOn
        { w with
          store := w.store.set (locationOf (stagingPath host.here w.store))
            (.directory stagingMode) } = (.ok standings, w₃) := by
    rw [hlocation, hpath, compareStaged,
      Action.runOn_bind_of_ok _ _ _ _ () (Action.runOn_record _ _ _ _),
      Action.runOn_bind_of_ok _ _ _ w₁ _ hrun, Action.runOn_bind_of_ok _ _ w₁ w₂ () hformatted,
      hcompare]
    rw [comparedAll_of_readRefusal_eq_none host directory _ _
      (fun p _ => hpermissive.readRefusal _) fun p _ => hpermissive.readRefusal _]
    exact ⟨_, rfl⟩
  exact ⟨_, _, runOn_verify host directory format as w w₃ _ hstandings⟩

end Stage

/-- If the names of the artifacts leave room for those of temporary files, verification comes to an
outcome, which sorts the artifacts by what is committed and what the hook makes of the fresh copies,
or without a hook by their bytes. -/
theorem verification_classifies (host : Host) (hhere : Path.isAbsolute host.here = true)
    (hpermissive : host.Permissive) (directory : Text) (format : List Text → Action Unit)
    (htouches : TouchesOnly host.here format) (hends : Ends host.here format) (as : List Artifact)
    (hnodup : (as.map Artifact.name).Nodup)
    (has : ∀ a ∈ as, FitsAmong as.length a.name ∧ ∃ data, a.encode = .ok data) (w : Workspace)
    (hs : w.store.IsTree) (hstage : CanStage w.store)
    (hapart : IsApart host.here directory w.store) :
    (∃ v w', (verify host directory format as).runOn w = (.ok v, w') ∧
      Describes host directory format as w v) ∧
    ∃ v w', (verify host directory (fun _ => pure ()) as).runOn w = (.ok v, w') ∧
      Classifies v as (fun n => w.store.content? host.here (Path.join directory n)) fun a =>
        a.encode.toOption := by
  have hnames := fun a ha => (has a ha).1.isEntryName
  constructor
  · obtain ⟨v, w', hrun⟩ := exists_runOn_verify_of_fitsAmong host hhere hpermissive directory format
      hends as hnodup has w hs hstage
    exact ⟨v, w', hrun, describes_of_verify_eq_ok host directory format as hhere hnames hnodup
      htouches w w' v hs hapart hrun⟩
  · obtain ⟨v, w', hrun⟩ := exists_runOn_verify_of_fitsAmong host hhere hpermissive directory
      (fun _ => pure ()) (fun _ w _ => ⟨w, rfl⟩) as hnodup has w hs hstage
    obtain ⟨w₁, w₂, -, hstaged, hformat, hclassifies⟩ := describes_of_verify_eq_ok host directory
      (fun _ => pure ()) as hhere hnames hnodup (fun _ _ _ _ _ => rfl) w w' v hs hapart hrun
    obtain rfl : w₁ = w₂ := (Prod.mk.inj hformat).2
    exact ⟨v, w', hrun, hclassifies.congr hstaged⟩

def temporaryArtifacts : List Artifact := [⟨"a.ts", "x"⟩, ⟨".a.ts.00000000.tmp", "y"⟩]

def committedWorkspace : Workspace :=
  { Run.nestedWorkspace with
    store := Run.nestedWorkspace.store.set (["out"] ++ ["a.ts"]) (.file [120] 0o644) }

theorem isTree_committedWorkspace : committedWorkspace.store.IsTree :=
  Store.isTree_set_file _ ["out"] "a.ts" _ _ Run.isTree_nestedWorkspace (by decide)
    ⟨0o755, by decide⟩ (by rintro ⟨m, hm⟩; exact nomatch hm)

theorem verification_classifies_committed :
    (∃ v w', (verify Run.markingHost "/out"
        (fun paths => do let _ ← Run.formatWith Run.markingHost Run.markingSettings paths)
        temporaryArtifacts).runOn committedWorkspace = (.ok v, w') ∧
      v.missing = [".a.ts.00000000.tmp"]) ∧
    ∃ v w', (verify Run.markingHost "/out" (fun _ => pure ()) temporaryArtifacts).runOn
        committedWorkspace = (.ok v, w') ∧ v.mismatched = [] := by
  obtain ⟨f, hformats⟩ := Run.exists_formatsBy Run.markingHost Run.markingSettings _
    fun _ tool h => Run.formatsInPlace_markingHost tool h
  have htouches := Run.touchesOnly_formatWith Run.markingHost Run.markingSettings
    fun _ tool h => (Run.formatsInPlace_markingHost tool h).touchesOnly
  have hends : Ends Run.markingHost.here
      (fun paths => do let _ ← Run.formatWith Run.markingHost Run.markingSettings paths) :=
    fun paths w hfiles => (hformats.formatsFiles _ _ f paths w hfiles).imp fun _ h => h.1
  have hfits : ∀ a ∈ temporaryArtifacts, FitsAmong temporaryArtifacts.length a.name ∧
      ∃ data, a.encode = .ok data :=
    List.forall_mem_cons.2 ⟨⟨⟨by decide, by decide, by decide⟩, [120], by decide⟩,
      List.forall_mem_singleton.2 ⟨⟨by decide, by decide, by decide⟩, [121], by decide⟩⟩
  obtain ⟨⟨v, w', hrun, w₁, w₂, -, -, -, hhook⟩, v', w'', hrun', hplain⟩ :=
    verification_classifies Run.markingHost rfl ⟨fun _ => rfl, fun _ => rfl⟩ "/out" _ htouches hends
      temporaryArtifacts (by decide) hfits committedWorkspace isTree_committedWorkspace
      ⟨⟨0o755, by decide⟩, by decide⟩ (.inl (by decide +kernel))
  refine ⟨⟨v, w', hrun, ?_⟩, v', w'', hrun', ?_⟩
  · rw [hhook.missing_eq]
    decide +kernel
  · rw [hplain.mismatched_eq]
    decide +kernel

def longArtifact : Artifact := ⟨List.replicate 250 (.scalar 'a'), "x"⟩

def longWorkspace : Workspace :=
  { Run.nestedWorkspace with
    store := Run.nestedWorkspace.store.set ["out", longArtifact.name] (.file [120] 0o644) }

/-- An artifact whose name is short enough for a file, but not for its temporary file, is not
verified, even if it is committed. -/
theorem not_verified_with_long_name :
    Path.IsEntryName longArtifact.name ∧ longArtifact.encode = .ok [120] ∧
      longWorkspace.store.content? bareHost.here (Path.join "/out" longArtifact.name) =
        some [120] ∧
      ¬ ∃ v w', (verify bareHost "/out" (fun _ => pure ()) [longArtifact]).runOn longWorkspace =
        (.ok v, w') := by
  refine ⟨by decide +kernel, by decide +kernel, by decide +kernel, ?_⟩
  rintro ⟨v, w', hrun⟩
  have hfails : ((verify bareHost "/out" (fun _ => pure ()) [longArtifact]).runOn
      longWorkspace).1.toOption = none := by decide +kernel
  rw [hrun] at hfails
  exact nomatch hfails

end Verification

end LocaleKeys
