import LocaleKeys.Path.Expansion
import LocaleKeys.Proofs.Path.Normal
import LocaleKeys.Proofs.Success
import LocaleKeys.Proofs.Text.Trimming

/-!
# Canonical paths

A canonical path is absolute and its own normal form. Paths that users write come to canonical ones
(`isCanonical_of_resolve`). A canonical path comes to itself, whatever the variables and directories
are, unless it looks like something that is not meant literally (`resolve_of_isCanonical`): a
reference to a variable, or blanks around a path.
-/

namespace LocaleKeys

namespace Path

/-- Whether a path is absolute and in normal form. -/
structure IsCanonical (p : Text) : Prop where
  absolute : isAbsolute p = true
  normal_eq : normal p = p

/-- Whether nothing in a path is expanded or trimmed at its end. -/
structure IsLiteral (p : Text) : Prop where
  reference_not_mem : CodePoint.scalar '$' ∉ p
  last : ∀ c ∈ p.getLast?, c.isBlank = false

theorem isCanonical_normal (p : Text) (h : isAbsolute p = true) : IsCanonical (normal p) := by
  have hleading := leading_eq_one_or_two p h
  rw [normal_eq_rooted p h]
  refine ⟨?_, normal_rooted _ _ (isEntryName_of_mem_segments p h) hleading⟩
  rcases hleading with hk | hk
  · rw [hk]
    rfl
  · rw [hk]
    rfl

theorem isCanonical_absolute (here p : Text) (h : isAbsolute here = true) :
    IsCanonical (Path.absolute here p) :=
  isCanonical_normal _ (isAbsolute_join_of_isAbsolute here p h)

theorem isCanonical_of_resolve (env : Environment) (here base : Text) (path : Option Text)
    (p : Text) (hhere : isAbsolute here = true)
    (h : resolve env here path base = .ok (some p)) : IsCanonical p := by
  unfold resolve at h
  simp only at h
  split at h
  · exact nomatch h
  · obtain ⟨q, -, h⟩ := exists_of_bind_eq_ok _ _ _ h
    obtain ⟨q', -, h⟩ := exists_of_bind_eq_ok _ _ _ h
    rw [← Option.some.inj (Except.ok.inj h)]
    exact isCanonical_absolute here _ hhere

theorem expandHome_of_isAbsolute (env : Environment) (p : Text) (h : isAbsolute p = true) :
    expandHome env p = .ok p := by
  unfold expandHome
  split
  · next t =>
      have htilde : isAbsolute (.scalar '~' :: t) = false := rfl
      exact nomatch htilde.symm.trans h
  · rfl

theorem expandVariables_of_not_mem (env : Environment) (p : Text)
    (h : CodePoint.scalar '$' ∉ p) : expandVariables env p = .ok p := by
  rw [expandVariables]
  induction p with
  | nil => rfl
  | cons c p ih =>
      obtain ⟨hc, hp⟩ := List.ne_and_not_mem_of_not_mem_cons h
      rw [expandVariables.go, if_neg (Ne.symm hc), ih hp]
      rfl

theorem eq_slash_of_head?_eq (p : Text) (h : isAbsolute p = true) (c : CodePoint)
    (hc : p.head? = some c) : c = slash := by
  cases p with
  | nil => exact nomatch hc
  | cons d p => exact (Option.some.inj hc) ▸ of_decide_eq_true h

theorem isProper_of_isCanonical (p : Text) (h : IsCanonical p) (hp : IsLiteral p) : p.IsProper := by
  refine ⟨⟨fun c hc => ?_, hp.last⟩, ?_⟩
  · rw [eq_slash_of_head?_eq p h.absolute c hc]
    rfl
  · rintro rfl
    exact nomatch h.absolute

/-- A canonical path that is meant literally comes to itself. -/
theorem resolve_of_isCanonical (env : Environment) (here base p : Text) (h : IsCanonical p)
    (hp : IsLiteral p) : resolve env here (some p) base = .ok (some p) := by
  have hproper := isProper_of_isCanonical p h hp
  obtain ⟨habs, hnormal⟩ := h
  have hne : p.isEmpty = false := by
    rw [← Bool.not_eq_true, List.isEmpty_iff]
    exact hproper.ne_nil
  have hjoin : ∀ d, join d p = p := fun d => if_pos habs
  rw [resolve, Option.getD_some, Text.trim_of_hasBareEnds p hproper.ends]
  simp only [hne, Bool.false_eq_true, if_false, expandHome_of_isAbsolute env p habs,
    expandVariables_of_not_mem env p hp.reference_not_mem, bind, Except.bind, pure, Except.pure,
    hjoin, Path.absolute, hnormal]

end Path

end LocaleKeys
