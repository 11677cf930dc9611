import LocaleKeys.Proofs.Store.Replacement
import LocaleKeys.Proofs.Success

/-!
# A replacement is all or nothing

A file is replaced in four effects: a temporary file is made, filled, given its mode and moved into
place. If anything fails the temporary file is taken away again.

A replacement sets one entry and leaves every other one as it is (`setsFile_of_replace_eq_ok`). It
succeeds wherever nothing is refused and the temporary file has a place
(`replace_of_hasTemporaryPlace`). If anything is refused, the store is the one before
(`eq_of_replace_eq_error`): up to the move there is one entry more in it, at a location that was
free (`exists_eq_set_of_finish_eq_error`).
-/

namespace LocaleKeys

namespace Store

/-- What has become of a store in which the file at a path was to be replaced: the bytes are in
their place and nothing else has changed, or nothing at all has changed. A new file has the mode
that the mask leaves, one that is replaced hands its mode on. -/
inductive ReplacementOutcome (s : Store) (mask : Mode) (here path : Text) (data : Bytes) :
    Except StoreFault Unit × Store → Prop
  | created (s' : Store) (l : Location) (hlocate : s.locate here path = .ok l)
      (hbefore : s.get? l = none) (hafter : s'.get? l = some (.file data (newFileMode mask)))
      (hcontent : s'.content? here path = some data) (hother : ∀ k, k ≠ l → s'.get? k = s.get? k) :
      ReplacementOutcome s mask here path data (.ok (), s')
  | replaced (s' : Store) (l : Location) (hlocate : s.locate here path = .ok l) (old : Bytes)
      (mode : Mode) (hbefore : s.get? l = some (.file old mode))
      (hafter : s'.get? l = some (.file data mode)) (hcontent : s'.content? here path = some data)
      (hother : ∀ k, k ≠ l → s'.get? k = s.get? k) :
      ReplacementOutcome s mask here path data (.ok (), s')
  | refused (f : StoreFault) : ReplacementOutcome s mask here path data (.error f, s)

/-- Whether nothing in the store stands in the way of replacing the file at a path. -/
structure CanReplace (s : Store) (here path : Text) : Prop where
  hasTemporaryPlace : s.HasTemporaryPlace here path
  isEntryName_base : Path.IsEntryName (Path.base path)
  exists_locate : ∃ l, s.locate here path = .ok l ∧ ¬ s.IsDirectoryAt l

theorem Refusals.eq_none_of_eq_none (refusals : Refusals) (hcreate : refusals.create = .none)
    (hfill : refusals.fill = .none) (hmode : refusals.setMode = .none)
    (hmove : refusals.move = .none) : refusals = none := by
  cases refusals
  simp only at hcreate hfill hmode hmove
  rw [hcreate, hfill, hmode, hmove]
  rfl

theorem setIn_setIn (l : Location) (e f : Entry) (es : List (Location × Entry)) :
    setIn l f (setIn l e es) = setIn l f es := by
  induction es with
  | nil => simp [setIn]
  | cons x es ih =>
      obtain ⟨k, g⟩ := x
      by_cases hk : k = l
      · simp [setIn, hk]
      · simp [setIn, hk, ih]

theorem set_set (s : Store) (l : Location) (e f : Entry) : (s.set l e).set l f = s.set l f :=
  congrArg Store.mk (setIn_setIn l e f s.entries)

theorem SetsFile.replacementOutcome (s s' : Store) (mask : Mode) (here path : Text) (data : Bytes)
    (h : s.SetsFile s' here path data (s.modeUnder mask here path)) :
    ReplacementOutcome s mask here path data (.ok (), s') := by
  obtain ⟨-, parent, hlocate, -, hfile, rfl⟩ := h
  have hne : parent ++ [Path.base path] ≠ [] := by simp
  have hget := get?_set_self s _ (.file data (s.modeUnder mask here path)) hne
  have hother := fun k hk =>
    get?_set_of_ne s (parent ++ [Path.base path]) k (.file data (s.modeUnder mask here path)) hk
  have hsame := sameDirectories_set_file s _ data (s.modeUnder mask here path) hne hfile
  have hcontent := (content?_eq_some_iff _ _ _ _).2 ⟨_, _, (hsame.locate_iff here path _).2 hlocate,
    hget⟩
  have hmode := modeUnder_eq_of_locate s mask here path _ hlocate
  cases hold : s.get? (parent ++ [Path.base path]) with
  | none =>
      rw [hold] at hmode
      refine .created _ _ hlocate hold ?_ hcontent hother
      rw [hget, hmode]
      rfl
  | some e =>
      cases e with
      | directory mode => exact absurd ⟨mode, hold⟩ hfile
      | file old mode =>
          rw [hold] at hmode
          refine .replaced _ _ hlocate old mode hold ?_ hcontent hother
          rw [hget, hmode]
          rfl

section Effects

variable (s s' : Store) (refusals : Refusals) (mask : Mode) (temporary here path : Text)
variable (source : Location) (data : Bytes) (mode : Mode)

theorem fill_eq_ok_iff :
    s.fill refusals mask source data = .ok s' ↔
      refusals.fill = none ∧ s' = s.set source (.file data (privateMode mask)) := by
  unfold fill
  cases refusals.fill with
  | some r => exact ⟨fun h => (nomatch h), fun h => (nomatch h.1)⟩
  | none => exact ⟨fun h => ⟨rfl, (Except.ok.inj h).symm⟩, fun h => congrArg Except.ok h.2.symm⟩

theorem exists_eq_set_of_fill_eq_error (f : StoreFault) (reached : Store)
    (h : s.fill refusals mask source data = .error (f, reached)) :
    ∃ e, reached = s.set source e := by
  unfold fill at h
  split at h
  · exact ⟨_, (Prod.mk.inj (Except.error.inj h)).2.symm⟩
  · exact nomatch h

theorem setMode_eq_ok_iff :
    s.setMode refusals temporary source data mode = .ok s' ↔
      refusals.setMode = none ∧ s' = s.set source (.file data mode) := by
  unfold setMode
  cases refusals.setMode with
  | some r => exact ⟨fun h => (nomatch h), fun h => (nomatch h.1)⟩
  | none => exact ⟨fun h => ⟨rfl, (Except.ok.inj h).symm⟩, fun h => congrArg Except.ok h.2.symm⟩

theorem eq_of_setMode_eq_error (f : StoreFault) (reached : Store)
    (h : s.setMode refusals temporary source data mode = .error (f, reached)) : reached = s := by
  unfold setMode at h
  split at h
  · exact (Prod.mk.inj (Except.error.inj h)).2.symm
  · exact nomatch h

theorem eq_of_moveInto_eq_error (f : StoreFault) (reached : Store)
    (h : s.moveInto refusals temporary here path source = .error (f, reached)) : reached = s := by
  unfold moveInto at h
  split at h
  · exact (Prod.mk.inj (Except.error.inj h)).2.symm
  · exact (Prod.mk.inj (Except.error.inj h)).2.symm
  · split at h
    · exact (Prod.mk.inj (Except.error.inj h)).2.symm
    · exact nomatch h

theorem exists_eq_set_of_finish_eq_error (e : Entry) (f : StoreFault) (reached : Store)
    (h : (s.set source e).finish refusals mask temporary here path source data mode =
      .error (f, reached)) :
    ∃ e', reached = s.set source e' := by
  rcases bind_eq_error_cases _ _ _ h with hfill | ⟨filled, hfill, h⟩
  · obtain ⟨e', rfl⟩ := exists_eq_set_of_fill_eq_error _ _ _ _ _ f reached hfill
    exact ⟨e', set_set s source e e'⟩
  obtain ⟨-, rfl⟩ := (fill_eq_ok_iff _ _ _ _ _ _).1 hfill
  rw [set_set] at h
  rcases bind_eq_error_cases _ _ _ h with hmode | ⟨complete, hmode, h⟩
  · exact ⟨_, eq_of_setMode_eq_error _ _ _ _ _ _ f reached hmode⟩
  obtain ⟨-, rfl⟩ := (setMode_eq_ok_iff _ _ _ _ _ _ _).1 hmode
  rw [set_set] at h
  exact ⟨_, eq_of_moveInto_eq_error _ _ _ _ _ _ f reached h⟩

/-- Without a refusal before the move, the effects come down to moving a complete file. -/
theorem finish_eq_moveInto (e : Entry) (hfill : refusals.fill = none)
    (hmode : refusals.setMode = none) :
    (s.set source e).finish refusals mask temporary here path source data mode =
      (s.set source (.file data mode)).moveInto refusals temporary here path source := by
  have hfilled := (fill_eq_ok_iff (s.set source e) _ refusals mask source data).2 ⟨hfill, rfl⟩
  rw [set_set] at hfilled
  have hcomplete := (setMode_eq_ok_iff (s.set source (.file data (privateMode mask))) _ refusals
    temporary source data mode).2 ⟨hmode, rfl⟩
  rw [set_set] at hcomplete
  rw [finish, hfilled]
  simp only [bind, Except.bind, hcomplete]

variable (hne : source ≠ []) (hfree : s.get? source = none)
include hne hfree

theorem setsFile_of_moveInto_eq_ok
    (h : (s.set source (.file data mode)).moveInto refusals temporary here path source = .ok s') :
    refusals.move = none ∧ s.SetsFile s' here path data mode := by
  unfold moveInto at h
  split at h
  · exact nomatch h
  · exact nomatch h
  · next hcheck hmove =>
      split at h
      · exact nomatch h
      · next s'' hs =>
          obtain rfl := Except.ok.inj h
          have hnames := (checkPath_eq_ok_iff _).1 hcheck
          exact ⟨hmove, setsFile_of_move_eq_ok s s'' here path source data mode hne hfree hnames hs⟩

theorem setsFile_of_finish_eq_ok (e : Entry) (hcreate : refusals.create = none)
    (h : (s.set source e).finish refusals mask temporary here path source data mode = .ok s') :
    refusals = Refusals.none ∧ s.SetsFile s' here path data mode := by
  obtain ⟨filled, hfilled, h'⟩ := exists_of_bind_eq_ok _ _ _ h
  obtain ⟨complete, hcomplete, -⟩ := exists_of_bind_eq_ok _ _ _ h'
  have hfill := ((fill_eq_ok_iff _ _ _ _ _ _).1 hfilled).1
  have hmode := ((setMode_eq_ok_iff _ _ _ _ _ _ _).1 hcomplete).1
  rw [finish_eq_moveInto s refusals mask temporary here path source data mode e hfill hmode] at h
  obtain ⟨hmove, hset⟩ := setsFile_of_moveInto_eq_ok s s' refusals temporary here path source data
    mode hne hfree h
  exact ⟨refusals.eq_none_of_eq_none hcreate hfill hmode hmove, hset⟩

end Effects

section Replacing

variable (s s' : Store) (refusals : Refusals) (mask : Mode) (here path : Text) (data : Bytes)

theorem replace_of_locate (source : Location) (hcreate : refusals.create = none)
    (h : s.locate here (Path.join (temporaryDirectory here path) (s.temporaryFor here path)) =
      .ok source) :
    s.replace refusals mask here path data =
      match (s.set source (.file [] (privateMode mask))).finish refusals mask
          (Path.join (temporaryDirectory here path) (s.temporaryFor here path)) here path source
          data (s.modeUnder mask here path) with
      | .error (f, reached) => (.error f, reached.erase source)
      | .ok s' => (.ok (), s') := by
  rcases hfinish : (s.set source (.file [] (privateMode mask))).finish refusals mask
    (Path.join (temporaryDirectory here path) (s.temporaryFor here path)) here path source data
    (s.modeUnder mask here path) with ⟨f, reached⟩ | s'
  · unfold replace
    simp only [h, hcreate, hfinish]
  · unfold replace
    simp only [h, hcreate, hfinish]

variable (hhere : Path.isAbsolute here = true)
include hhere

theorem setsFile_of_replace_eq_ok
    (h : s.replace refusals mask here path data = (.ok (), s')) :
    refusals = Refusals.none ∧ s.HasTemporaryPlace here path ∧
      s.SetsFile s' here path data (s.modeUnder mask here path) := by
  unfold replace at h
  simp only at h
  split at h
  · exact nomatch (Prod.mk.inj h).1
  · exact nomatch (Prod.mk.inj h).1
  · next source hsource hcreate =>
      split at h
      · exact nomatch (Prod.mk.inj h).1
      · next hfinish =>
          obtain ⟨-, rfl⟩ := Prod.mk.inj h
          obtain ⟨hne, hfree⟩ := exists_of_locate_temporary s here path source hhere hsource
          obtain ⟨hnone, hset⟩ := setsFile_of_finish_eq_ok _ _ _ _ _ _ _ _ _ _ hne hfree _ hcreate
            hfinish
          exact ⟨hnone, ⟨source, hsource⟩, hset⟩

/-- If anything is refused, the store is the one before: the temporary file is gone again. -/
theorem eq_of_replace_eq_error (f : StoreFault)
    (h : s.replace refusals mask here path data = (.error f, s')) : s' = s := by
  unfold replace at h
  simp only at h
  split at h
  · exact (Prod.mk.inj h).2.symm
  · exact (Prod.mk.inj h).2.symm
  · next source hsource _ =>
      split at h
      · next reached hfinish =>
          obtain ⟨e, rfl⟩ := exists_eq_set_of_finish_eq_error _ _ _ _ _ _ _ _ _ _ _ reached hfinish
          obtain ⟨-, hfree⟩ := exists_of_locate_temporary s here path source hhere hsource
          rw [← (Prod.mk.inj h).2, erase_set_of_get?_eq_none s source e hfree]
      · exact nomatch (Prod.mk.inj h).1

/-- Where the temporary file has a place, a path that ends in the name of an entry can be replaced,
unless there is a directory at it. -/
theorem replace_of_hasTemporaryPlace (l : Location) (hbase : Path.IsEntryName (Path.base path))
    (hplace : s.HasTemporaryPlace here path) (hlocate : s.locate here path = .ok l)
    (hfile : ¬ s.IsDirectoryAt l) :
    s.replace Refusals.none mask here path data =
      (.ok (), s.set l (.file data (s.modeUnder mask here path))) := by
  obtain ⟨source, hsource⟩ := hplace
  obtain ⟨hne, hfree⟩ := exists_of_locate_temporary s here path source hhere hsource
  have hcheck := (checkPath_eq_ok_iff path).2 ((locate_eq_ok_iff _ _ _ _).1 hlocate).1
  have hmove := move_set_of_locate s here path source data (s.modeUnder mask here path) l hbase hne
    hfree hlocate hfile
  rw [replace_of_locate _ _ _ _ _ _ source rfl hsource,
    finish_eq_moveInto _ _ _ _ _ _ _ _ _ _ rfl rfl, moveInto, hcheck]
  simp only [Refusals.none, hmove]

end Replacing

theorem exists_of_replace_join_eq_ok (s s' : Store) (refusals : Refusals) (mask : Mode)
    (here dir name : Text) (data : Bytes) (hhere : Path.isAbsolute here = true) (hdir : dir ≠ [])
    (hname : Path.slash ∉ name)
    (h : s.replace refusals mask here (Path.join dir name) data = (.ok (), s')) :
    ∃ parent, s.locate here (Path.join dir name) = .ok (parent ++ [name]) ∧
      s.IsDirectoryAt parent ∧ ¬ s.IsDirectoryAt (parent ++ [name]) ∧
        s' = s.set (parent ++ [name])
          (.file data (s.modeUnder mask here (Path.join dir name))) := by
  obtain ⟨-, -, hset⟩ := setsFile_of_replace_eq_ok s s' refusals mask here _ data hhere h
  have hparent := hset.exists_parent
  rwa [Path.base_join dir name hdir hname] at hparent

section Outcome

variable (s : Store) (refusals : Refusals) (mask : Mode) (here path : Text) (data : Bytes)
variable (hhere : Path.isAbsolute here = true)
include hhere

/-- A file is replaced exactly if nothing is refused and nothing stands in the way. -/
theorem fst_replace_eq_ok_iff :
    (s.replace refusals mask here path data).1 = .ok () ↔
      refusals = Refusals.none ∧ s.CanReplace here path := by
  constructor
  · intro h
    rcases hrun : s.replace refusals mask here path data with ⟨r, s'⟩
    rw [hrun] at h
    obtain rfl : r = .ok () := h
    obtain ⟨hnone, hplace, hbase, parent, hlocate, -, hfile, -⟩ :=
      setsFile_of_replace_eq_ok _ _ _ _ _ _ _ hhere hrun
    exact ⟨hnone, hplace, hbase, _, hlocate, hfile⟩
  · rintro ⟨rfl, hplace, hbase, l, hlocate, hfile⟩
    rw [replace_of_hasTemporaryPlace s mask here path data hhere l hbase hplace hlocate hfile]

/-- Whatever is refused while a file is replaced, and under any mask for new files, it is replaced
or nothing has changed; and it is replaced exactly if nothing is refused and nothing stands in the
way. -/
theorem replacing_is_all_or_nothing :
    ReplacementOutcome s mask here path data (s.replace refusals mask here path data) ∧
      ((s.replace refusals mask here path data).1 = .ok () ↔
        refusals = Refusals.none ∧ s.CanReplace here path) := by
  refine ⟨?_, fst_replace_eq_ok_iff s refusals mask here path data hhere⟩
  rcases hrun : s.replace refusals mask here path data with ⟨f | u, s'⟩
  · obtain rfl := eq_of_replace_eq_error _ _ _ _ _ _ _ hhere f hrun
    exact .refused f
  · obtain ⟨-, -, hset⟩ := setsFile_of_replace_eq_ok _ _ _ _ _ _ _ hhere hrun
    exact hset.replacementOutcome

end Outcome

def privateStore : Store := ⟨[(["keys"], .file [1] 0o600)]⟩

theorem replacing_is_all_or_nothing_private :
    (∃ s', privateStore.replace Refusals.none 0o027 "/" "keys" [2, 3] = (.ok (), s') ∧
      s'.get? ["keys"] = some (.file [2, 3] 0o600)) ∧
    ∃ f, privateStore.replace { fill := some (1, .noSpace) } 0o027 "/" "keys" [2, 3] =
      (.error f, privateStore) := by
  have hkeys : privateStore.locate "/" "keys" = .ok ["keys"] := by decide +kernel
  have hold : privateStore.get? ["keys"] = some (.file [1] 0o600) := by decide +kernel
  constructor
  · obtain ⟨hreplaced, hok⟩ := replacing_is_all_or_nothing privateStore Refusals.none 0o027 "/"
      "keys" [2, 3] (by decide)
    have hok := hok.2 ⟨rfl, by decide +kernel, by decide +kernel, ["keys"], hkeys,
      not_isDirectoryAt_of_get?_eq_file _ _ _ _ hold⟩
    rcases hrun : privateStore.replace Refusals.none 0o027 "/" "keys" [2, 3] with ⟨r, s'⟩
    rw [hrun] at hreplaced hok
    obtain rfl : r = .ok () := hok
    cases hreplaced with
    | created _ l hlocate hbefore hafter hcontent hother =>
        obtain rfl := Except.ok.inj (hkeys.symm.trans hlocate)
        exact nomatch hold.symm.trans hbefore
    | replaced _ l hlocate old mode hbefore hafter hcontent hother =>
        obtain rfl := Except.ok.inj (hkeys.symm.trans hlocate)
        obtain ⟨-, rfl⟩ := Entry.file.inj (Option.some.inj (hold.symm.trans hbefore))
        exact ⟨s', rfl, hafter⟩
  · obtain ⟨hrefused, hok⟩ := replacing_is_all_or_nothing privateStore
      { fill := some (1, .noSpace) } 0o027 "/" "keys" [2, 3] (by decide)
    rcases hrun : privateStore.replace { fill := some (1, .noSpace) } 0o027 "/" "keys" [2, 3] with
      ⟨r, s'⟩
    rw [hrun] at hrefused hok
    cases hrefused with
    | created _ l hlocate hbefore hafter hcontent hother => exact nomatch (hok.1 rfl).1
    | replaced _ l hlocate old mode hbefore hafter hcontent hother => exact nomatch (hok.1 rfl).1
    | refused f => exact ⟨f, rfl⟩

end Store

end LocaleKeys
