import LocaleKeys.Locale.Catalogue
import LocaleKeys.Proofs.Success
import Mathlib.Data.List.TakeWhile

/-!
# Filling a template

A template whose text has no braces but those of one placeholder becomes its text with the argument
in that place. The argument is taken as it is, whatever it holds: a brace in it is no placeholder
(`fill_placeholder`).
-/

namespace LocaleKeys

namespace Template

/-- Whether a text is given back as it is when it stands in a template. -/
def IsLiteral (t : Text) : Prop := ∀ c ∈ t, c ≠ openBrace ∧ c ≠ closeBrace

instance (t : Text) : Decidable (IsLiteral t) := by unfold IsLiteral; infer_instance

structure IsArgumentName (name : Text) : Prop where
  ne_nil : name ≠ []
  plain : ∀ c ∈ name, c ≠ openBrace ∧
    (c = closeBrace || c = .scalar ':' || c = .scalar '!') = false ∧ startsStep c = false
  index : index? name = .ok none

instance (name : Text) : Decidable (IsArgumentName name) :=
  decidable_of_iff
    (name ≠ [] ∧ (∀ c ∈ name, c ≠ openBrace ∧
      (c = closeBrace || c = .scalar ':' || c = .scalar '!') = false ∧ startsStep c = false) ∧
        index? name = .ok none)
    ⟨fun ⟨h₁, h₂, h₃⟩ => ⟨h₁, h₂, h₃⟩, fun ⟨h₁, h₂, h₃⟩ => ⟨h₁, h₂, h₃⟩⟩

section Literal

variable (inner : Text → Except TemplateFault Text) (arguments : Arguments)

theorem expandWith_literal_append (fuel : Nat) (t rest : Text) (h : IsLiteral t) :
    expandWith inner arguments (t.length + fuel) (t ++ rest) =
      (expandWith inner arguments fuel rest).map (t ++ ·) := by
  induction t with
  | nil =>
      rw [List.nil_append, List.length_nil, Nat.zero_add]
      cases expandWith inner arguments fuel rest <;> rfl
  | cons c t ih =>
      obtain ⟨hopen, hclose⟩ := h c List.mem_cons_self
      have hlength : (c :: t).length + fuel = t.length + fuel + 1 := by
        rw [List.length_cons]; omega
      rw [hlength, List.cons_append, expandWith, if_neg hopen, if_neg hclose,
        ih fun c hc => h c (List.mem_cons_of_mem _ hc)]
      cases expandWith inner arguments fuel rest <;> rfl

theorem expandWith_literal (fuel : Nat) (t : Text) (h : IsLiteral t) :
    expandWith inner arguments (t.length + fuel) t = .ok t := by
  have hfill := expandWith_literal_append inner arguments fuel t [] h
  have hend : expandWith inner arguments fuel [] = .ok [] := by cases fuel <;> rfl
  rw [List.append_nil, hend] at hfill
  rw [hfill, Except.map, List.append_nil]

end Literal

section Name

variable {name : Text} (h : IsArgumentName name)
include h

theorem scanName_append_eq_map (rest : Text) :
    scanName false (name ++ rest) =
      (scanName false rest).map fun (more, stop, after) => (name ++ more, stop, after) := by
  have hplain := h.plain
  clear h
  induction name with
  | nil => simp
  | cons c t ih =>
      obtain ⟨hopen, hstop, hstep⟩ := hplain c List.mem_cons_self
      have hbracket : (c = CodePoint.scalar '[') = False := by
        simpa [startsStep] using (Bool.or_eq_false_iff.1 hstep).2
      have hrest := ih fun c hc => hplain c (List.mem_cons_of_mem _ hc)
      simp [scanName, hopen, hstop, hbracket, hrest, Function.comp_def]

theorem scanName_append (after : Text) :
    scanName false (name ++ closeBrace :: after) = some (name, closeBrace, after) := by
  have hstop : scanName false (closeBrace :: after) = some ([], closeBrace, after) := rfl
  simp only [scanName_append_eq_map h, hstop, Option.map_some, List.append_nil]

theorem scan_append (after : Text) :
    scan (name ++ closeBrace :: after) = some (⟨name, none, []⟩, after) := by
  rw [scan, scanName_append h after]
  rfl

theorem resolve_eq (arguments : Arguments) (v : Value) (hv : arguments.lookup name = some v) :
    resolve arguments name = .ok (.value v) := by
  have hsteps : ∀ c ∈ name, (!startsStep c) = true := fun c hc => by simp [(h.plain c hc).2.2]
  have hfirst : name.takeWhile (!startsStep ·) = name := List.takeWhile_eq_self_iff.2 hsteps
  have hrest : name.dropWhile (!startsStep ·) = [] := List.dropWhile_eq_nil_iff.2 hsteps
  have hempty : name.isEmpty = false := by simpa using h.ne_nil
  rw [resolve]
  simp only [hfirst, hrest, h.index, hempty, hv]
  rfl

/-- A placeholder that names an argument becomes the text of the argument, and no further
placeholder is looked for in it. -/
theorem fill_placeholder (before after : Text) (hbefore : IsLiteral before)
    (hafter : IsLiteral after) (arguments : Arguments) (v : Value)
    (hv : arguments.lookup name = some v) :
    fill arguments (before ++ openBrace :: (name ++ closeBrace :: after)) =
      .ok (before ++ (v.text ++ after)) := by
  have hargs : arguments.isEmpty = false := by
    cases arguments with
    | nil => exact nomatch hv
    | cons a as => rfl
  have hhead : (name ++ closeBrace :: after).head? ≠ some openBrace := by
    cases hname : name with
    | nil => exact absurd hname h.ne_nil
    | cons c t =>
        have hc := (h.plain c (hname ▸ List.mem_cons_self)).1
        simpa using hc
  have hfuel : (name ++ closeBrace :: after).length = after.length + (name.length + 1) := by
    rw [List.length_append, List.length_cons]; omega
  have hexpand : expand arguments nesting (before ++ openBrace :: (name ++ closeBrace :: after)) =
      .ok (before ++ (v.text ++ after)) := by
    rw [nesting, expand, List.length_append, expandWith_literal_append _ _ _ _ _ hbefore,
      List.length_cons, expandWith, if_pos rfl, if_neg hhead, scan_append h after]
    simp only [resolve_eq h arguments v hv, Referent.convert, bind, Except.bind, hfuel,
      expandWith_literal _ _ _ _ hafter]
    rfl
  rw [fill, hargs, if_neg Bool.false_ne_true, hexpand]

end Name

end Template

end LocaleKeys
