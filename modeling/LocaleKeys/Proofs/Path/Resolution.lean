import LocaleKeys.Proofs.Path.Canonical

/-!
# What a written path comes to

A written path is looked at twice before it is anchored: for a user whose home it begins with, and
for references to variables. Both ask the system for a name, and a text that is no name stops them;
nothing else does (`exists_expanded_eq_ok_iff`). `Refers` says which references stand in a path,
read from the left, so that no reference begins inside another one.

What the expansion gives is joined to the directories and put into normal form. The result is made
of one slash or two and of the names of entries behind them, it depends on the base directory only
if the expanded path is relative, and it comes to itself again
(`written_paths_come_to_canonical_ones`).
-/

namespace LocaleKeys

namespace Path

def user? : Text → Option Text
  | .scalar '~' :: t =>
      let user := t.takeWhile (· ≠ slash)
      if user.isEmpty then none else some user
  | _ => none

/-- Whether a reference to the variable `name` stands in a path. -/
inductive Refers (name : Text) : Text → Prop
  | here (t : Text) (n : Nat) (h : reference? t = some (name, n)) :
      Refers name (.scalar '$' :: t)
  | beyond (t other : Text) (n : Nat) (h : reference? t = some (other, n))
      (hrest : Refers name (t.drop n)) : Refers name (.scalar '$' :: t)
  | plain (c : CodePoint) (t : Text) (h : c = .scalar '$' → reference? t = none)
      (hrest : Refers name t) : Refers name (c :: t)

section References

variable (name : Text) (c : CodePoint) (t : Text)

theorem refers_nil : ¬ Refers name [] := fun h => nomatch h

theorem refers_cons_of_plain (h : c = .scalar '$' → reference? t = none) :
    Refers name (c :: t) ↔ Refers name t := by
  refine ⟨fun hrefers => ?_, .plain c t h⟩
  cases hrefers with
  | here t n href => exact nomatch (h rfl).symm.trans href
  | beyond t other n href hrest => exact nomatch (h rfl).symm.trans href
  | plain c t h hrest => exact hrest

theorem refers_cons_of_reference (other : Text) (n : Nat) (h : reference? t = some (other, n)) :
    Refers name (.scalar '$' :: t) ↔ name = other ∨ Refers name (t.drop n) := by
  constructor
  · intro hrefers
    cases hrefers with
    | here t n' href =>
        exact .inl (Prod.mk.inj (Option.some.inj (href.symm.trans h))).1
    | beyond t other' n' href hrest =>
        obtain ⟨-, rfl⟩ := Prod.mk.inj (Option.some.inj (href.symm.trans h))
        exact .inr hrest
    | plain c t hplain hrest => exact nomatch (hplain rfl).symm.trans h
  · rintro (rfl | hrest)
    · exact .here t n h
    · exact .beyond t other n h hrest

end References

section Expansion

variable (env : Environment)

theorem exists_expandHome_eq_ok_iff (p : Text) :
    (∃ q, expandHome env p = .ok q) ↔ ∀ user ∈ user? p, Name.check user = .ok () := by
  unfold expandHome user?
  split
  · next t =>
      simp only
      split
      · simp
      · simp only [Option.mem_def, Option.some.injEq, forall_eq']
        cases Name.check (t.takeWhile (· ≠ slash)) with
        | error f => simp [Except.map]
        | ok u => simp [Except.map]
  · simp

theorem exists_go_eq_ok_iff (skip : Nat) (p : Text) :
    (∃ q, expandVariables.go env skip p = .ok q) ↔
      ∀ name, Refers name (p.drop skip) → Name.checkBytes name = .ok () := by
  -- A reference takes any number of code points, so that the claim is about every skip.
  induction p generalizing skip with
  | nil =>
      rw [List.drop_nil, expandVariables.go]
      exact iff_of_true ⟨[], rfl⟩ fun name h => absurd h (refers_nil name)
  | cons c p ih =>
      cases skip with
      | succ k =>
          rw [expandVariables.go, List.drop_succ_cons]
          exact ih k
      | zero =>
          rw [List.drop_zero, expandVariables.go]
          by_cases hc : c = .scalar '$'
          · subst hc
            rw [if_pos rfl]
            cases href : reference? p with
            | none =>
                simp only [refers_cons_of_plain _ _ p fun _ => href, exists_map_eq_ok_iff]
                exact ih 0
            | some r =>
                obtain ⟨other, n⟩ := r
                simp only [refers_cons_of_reference _ p other n href, or_imp, forall_and,
                  forall_eq, ← ih n]
                cases Name.checkBytes other with
                | error f => simp [bind, Except.bind]
                | ok u =>
                    cases expandVariables.go env n p <;>
                      simp [bind, Except.bind, pure, Except.pure]
          · rw [if_neg hc, exists_map_eq_ok_iff]
            simp only [refers_cons_of_plain _ c p fun h => absurd h hc]
            exact ih 0

/-- A written path with the home directory and the variables in place. -/
def expanded (p : Text) : Except NameFault Text := expandHome env p >>= expandVariables env

/-- Whether all that the system is asked for in a written path is a name: the user at its beginning,
and the variables in it once the home directory is in place. -/
structure AsksForNames (p : Text) : Prop where
  user : ∀ user ∈ user? p, Name.check user = .ok ()
  reference : ∀ q, expandHome env p = .ok q → ∀ name, Refers name q →
    Name.checkBytes name = .ok ()

theorem exists_expanded_eq_ok_iff (p : Text) :
    (∃ q, expanded env p = .ok q) ↔ AsksForNames env p := by
  constructor
  · rintro ⟨q, h⟩
    obtain ⟨q', hhome, hvariables⟩ := exists_of_bind_eq_ok _ _ _ h
    refine ⟨(exists_expandHome_eq_ok_iff env p).1 ⟨q', hhome⟩, fun q'' hq'' => ?_⟩
    obtain rfl := Except.ok.inj (hhome.symm.trans hq'')
    exact (exists_go_eq_ok_iff env 0 q').1 ⟨q, hvariables⟩
  · rintro ⟨huser, hvariables⟩
    obtain ⟨q', hhome⟩ := (exists_expandHome_eq_ok_iff env p).2 huser
    obtain ⟨q, hq⟩ := (exists_go_eq_ok_iff env 0 q').2 (hvariables q' hhome)
    refine ⟨q, ?_⟩
    rw [expanded, hhome]
    exact hq

end Expansion

def HasDoubleSlash (p : Text) : Prop := ∃ t, p = slash :: slash :: t ∧ isAbsolute t = false

theorem isAbsolute_iff (p : Text) : isAbsolute p = true ↔ ∃ t, p = slash :: t := by
  cases p with
  | nil => simp [isAbsolute]
  | cons c t => simp [isAbsolute]

theorem leading_eq_two_iff (p : Text) : leading p = 2 ↔ HasDoubleSlash p := by
  constructor
  · intro h
    rw [leading] at h
    split at h
    · next habs =>
        obtain ⟨t, rfl⟩ := (isAbsolute_iff p).1 habs
        split at h
        · next htwo =>
            obtain ⟨hsecond, hthird⟩ := Bool.and_eq_true_iff.1 htwo
            obtain ⟨u, hu⟩ := (isAbsolute_iff _).1 hsecond
            obtain rfl : t = slash :: u := hu
            exact ⟨u, rfl, by simpa using hthird⟩
        · exact absurd h (by decide)
    · exact absurd h (by decide)
  · rintro ⟨t, rfl, ht⟩
    have hfirst : isAbsolute (slash :: slash :: t) = true := rfl
    have hsecond : isAbsolute (slash :: t) = true := rfl
    rw [leading, if_pos hfirst, List.drop_one, List.tail_cons, hsecond]
    simp [ht]

section Resolution

variable (env : Environment) (here base : Text)

theorem resolve_of_trim_eq_nil (path : Option Text) (h : Text.trim (path.getD []) = []) :
    resolve env here path base = .ok none := by
  rw [resolve, h]
  rfl

theorem resolve_of_trim_ne_nil (path : Option Text) (h : Text.trim (path.getD []) ≠ []) :
    resolve env here path base =
      (expanded env (Text.trim (path.getD []))).map
        fun q => some (absolute here (join base q)) := by
  have hempty : (Text.trim (path.getD [])).isEmpty = false := by simpa using h
  rw [resolve, expanded]
  simp only [hempty, Bool.false_eq_true, if_false]
  cases expandHome env (Text.trim (path.getD [])) with
  | error f => rfl
  | ok q =>
      simp only [bind, Except.bind]
      cases expandVariables env q <;> rfl

/-- Only a path of blanks, or none, comes to nothing. -/
theorem resolve_eq_none_iff (path : Option Text) :
    resolve env here path base = .ok none ↔ ∀ t ∈ path, ∀ c ∈ t, c.isBlank = true := by
  have hblank : Text.trim (path.getD []) = [] ↔ ∀ t ∈ path, ∀ c ∈ t, c.isBlank = true := by
    cases path with
    | none => exact iff_of_true rfl fun t h => nomatch h
    | some t =>
        simp only [Option.mem_def, Option.some.injEq, forall_eq']
        exact Text.trim_eq_nil_iff t
  rw [← hblank]
  refine ⟨fun h => ?_, resolve_of_trim_eq_nil env here base path⟩
  by_contra hne
  rw [resolve_of_trim_ne_nil env here base path hne] at h
  obtain ⟨q, -, hq⟩ := exists_of_map_eq_ok _ _ _ h
  exact nomatch hq

variable (t : Text) (hsome : ∃ c ∈ t, c.isBlank = false)

include hsome

theorem resolve_of_not_blank :
    resolve env here (some t) base =
      (expanded env t.trim).map fun q => some (absolute here (join base q)) := by
  refine resolve_of_trim_ne_nil env here base (some t) fun hnil => ?_
  obtain ⟨c, hc, hbare⟩ := hsome
  exact nomatch hbare.symm.trans ((Text.trim_eq_nil_iff t).1 hnil c hc)

theorem exists_resolve_eq_some_iff :
    (∃ r, resolve env here (some t) base = .ok (some r)) ↔ AsksForNames env t.trim := by
  rw [← exists_expanded_eq_ok_iff, resolve_of_not_blank env here base t hsome]
  cases expanded env t.trim <;> simp [Except.map]

end Resolution

/-- Seen from an absolute directory a path comes to names below one slash, or below two if there are
exactly two at its beginning. -/
theorem exists_absolute_eq_rooted (here p : Text) (hhere : isAbsolute here = true) :
    ∃ k names, absolute here p = rooted k names ∧ (∀ n ∈ names, IsEntryName n) ∧
      (k = 1 ∨ k = 2) ∧ (k = 2 ↔ HasDoubleSlash (join here p)) := by
  have habs := isAbsolute_join_of_isAbsolute here p hhere
  exact ⟨leading (join here p), segments (join here p), normal_eq_rooted _ habs,
    isEntryName_of_mem_segments _ habs, leading_eq_one_or_two _ habs, leading_eq_two_iff _⟩

/-- A path of blanks, or none, comes to nothing, whatever the directories and variables are. Any
other path comes to a path exactly if the system is asked for names only. That path is made of one
slash, or of two if the expanded path has exactly two at its beginning where it is joined to the
directories, and of names of entries; it does not depend on the base directory if the expanded path
is absolute; and if nothing in it looks like a reference and no blank is at its end, it comes to
itself, seen from anywhere. -/
theorem written_paths_come_to_canonical_ones (env : Environment) (here base : Text)
    (path : Option Text) (hhere : isAbsolute here = true) :
    (resolve env here path base = .ok none ↔ ∀ t ∈ path, ∀ c ∈ t, c.isBlank = true) ∧
    ∀ t ∈ path, (∃ c ∈ t, c.isBlank = false) →
      ((∃ r, resolve env here path base = .ok (some r)) ↔ AsksForNames env t.trim) ∧
      ∀ r, resolve env here path base = .ok (some r) →
        ∃ q, expanded env t.trim = .ok q ∧
          (∃ k names, r = rooted k names ∧ (∀ n ∈ names, IsEntryName n) ∧ (k = 1 ∨ k = 2) ∧
            (k = 2 ↔ HasDoubleSlash (join here (join base q)))) ∧
          (isAbsolute q = true → ∀ base', resolve env here path base' = .ok (some r)) ∧
          (CodePoint.scalar '$' ∉ r → (∀ c ∈ r.getLast?, c.isBlank = false) →
            ∀ env' here' base', resolve env' here' (some r) base' = .ok (some r)) := by
  refine ⟨resolve_eq_none_iff env here base path, fun t ht hsome => ?_⟩
  obtain rfl : path = some t := ht
  refine ⟨exists_resolve_eq_some_iff env here base t hsome, fun r hr => ?_⟩
  have hresolve := fun base => resolve_of_not_blank env here base t hsome
  obtain ⟨q, hq, hrq⟩ := exists_of_map_eq_ok _ _ _ ((hresolve base).symm.trans hr)
  obtain rfl := Option.some.inj hrq
  refine ⟨q, hq, exists_absolute_eq_rooted here (join base q) hhere, ?_, ?_⟩
  · intro habs base'
    have hjoin : ∀ d, join d q = q := fun d => if_pos habs
    rw [hresolve base', hq, Except.map, hjoin, hjoin]
  · intro hreference hlast env' here' base'
    exact resolve_of_isCanonical env' here' base' _
      (isCanonical_absolute here (join base q) hhere) ⟨hreference, hlast⟩

/-- A path below the home directory, in which a variable leads up again. -/
theorem written_paths_come_to_canonical_ones_home :
    let env : Environment := { bindings := [("HOME", "//home/u/"), ("UP", "..")] }
    isAbsolute "/w" = true ∧
      resolve env "/w" (some " ~/a/$UP/b/. ") "/r" = .ok (some "//home/u/b") ∧
      resolve env "/w" (some " ~/a/$UP/b/. ") "/s" = .ok (some "//home/u/b") ∧
      resolve {} "/" (some "//home/u/b") "/" = .ok (some "//home/u/b") := by
  intro env
  have hresolve : resolve env "/w" (some " ~/a/$UP/b/. ") "/r" = .ok (some "//home/u/b") := by
    decide +kernel
  obtain ⟨-, hpath⟩ :=
    written_paths_come_to_canonical_ones env "/w" "/r" (some " ~/a/$UP/b/. ") rfl
  obtain ⟨-, hresult⟩ := hpath _ rfl ⟨.scalar '~', by decide, rfl⟩
  obtain ⟨q, hq, -, hbase, hagain⟩ := hresult _ hresolve
  have hexpanded : expanded env (Text.trim " ~/a/$UP/b/. ") = .ok "//home/u/a/../b/." := by
    decide +kernel
  obtain rfl := Except.ok.inj (hq.symm.trans hexpanded)
  exact ⟨rfl, hresolve, hbase rfl "/s", hagain (by decide) (by decide) {} "/" "/"⟩

/-- The home of a user cannot be asked for if the name of the user has no bytes. -/
theorem not_every_path_is_resolved :
    ¬ ∀ (env : Environment) (here base : Text) (path : Option Text), isAbsolute here = true →
      (∀ t ∈ path, CodePoint.scalar '\x00' ∉ t) → ∃ r, resolve env here path base = .ok r := by
  intro h
  obtain ⟨r, hr⟩ := h {} "/" "/" (some [.scalar '~', .surrogate 0]) rfl (by decide)
  have herror : resolve {} "/" (some [.scalar '~', .surrogate 0]) "/" =
      .error (.encoding ⟨0, 0, 0⟩) := by decide +kernel
  exact nomatch herror.symm.trans hr

end Path

end LocaleKeys
