import LocaleKeys.Proofs.Locale.Filling
import LocaleKeys.Proofs.Text.Segments

/-!
# Placeholders that fail

A template that cannot be used is given back as it is, but not every placeholder that cannot be
filled makes a template unusable. If all arguments are texts there are two ways to fail: a
placeholder goes on from its argument to an attribute, or to an item by a name (`LeadsByName`), or
its layout asks for a width that no text can have. `Escapes` says which failures that are, and
`escapes_of_fill_eq_error` that there are no others: going on by numbers leads from a text to a text
or makes the template unusable (`Arrives.follow`).

The first way does happen, whatever stands around the placeholder: a text has no items by name
(`fill_item_eq_error`).
-/

namespace LocaleKeys

namespace Template

def ofTexts (arguments : List (Text × Text)) : Arguments :=
  arguments.map fun (name, t) => (name, .str t)

/-- Whether a step goes to an attribute or to an item by its name. -/
def Step.IsByName : Step → Prop
  | .index _ => False
  | _ => True

/-- Whether there is a step by name among the steps that a text asks for, before one that cannot be
read. -/
inductive LeadsByName : Text → Prop
  | here (t rest : Text) (step : Step) (h : Step.read t = .ok (step, rest))
      (hstep : step.IsByName) : LeadsByName t
  | beyond (t rest : Text) (n : Nat) (h : Step.read t = .ok (.index n, rest))
      (hrest : LeadsByName rest) : LeadsByName t

namespace Placeholder

/-- What a placeholder asks for behind the name of its argument. -/
def way (p : Placeholder) : Text := p.name.dropWhile (!startsStep ·)

def layoutBy (inner : Text → Except TemplateFault Text) (p : Placeholder) :
    Except TemplateFault Text :=
  if p.layout.contains openBrace then inner p.layout else .ok p.layout

def filled (inner : Text → Except TemplateFault Text) (arguments : Arguments) (p : Placeholder) :
    Except TemplateFault Text := do
  let r ← (← resolve arguments p.name).convert p.conversion
  r.laidOut (← p.layoutBy inner)

end Placeholder

section Ways

/-- How going on from a text ends: at a text, or the template is unusable. At a kind, at a method,
or at a part that is not there, it may end only if it is `named`. -/
inductive Arrives (named : Prop) : Except TemplateFault Referent → Prop
  | text (t : Text) : Arrives named (.ok (.value (.str t)))
  | kind (k : Text) (h : named) : Arrives named (.ok (.kind k))
  | method (owner name : Text) (h : named) : Arrives named (.ok (.method owner name))
  | unusable : Arrives named (.error .unusable)
  | absent (f : PlaceholderFault) (h : named) : Arrives named (fault f)

theorem Arrives.mono {named named' : Prop} {r : Except TemplateFault Referent}
    (h : Arrives named r) (himp : named → named') : Arrives named' r := by
  cases h with
  | text t => exact .text t
  | kind k h => exact .kind k (himp h)
  | method owner name h => exact .method owner name (himp h)
  | unusable => exact .unusable
  | absent f h => exact .absent f (himp h)

theorem indexFrom_ne_failure (n : Nat) (t : Text) (f : Failure) :
    indexFrom n t ≠ .error (.failure f) := by
  induction t generalizing n with
  | nil => exact fun h => nomatch h
  | cons c t ih =>
      rw [indexFrom]
      split
      · exact fun h => nomatch h
      · next d _ =>
          split
          · exact fun h => nomatch h
          · exact ih (n * 10 + d)

theorem index?_ne_failure (t : Text) (f : Failure) : index? t ≠ .error (.failure f) := by
  rw [index?]
  split
  · exact fun h => nomatch h
  · exact indexFrom_ne_failure 0 t f

theorem Step.read_ne_failure (t : Text) (f : Failure) : Step.read t ≠ .error (.failure f) := by
  unfold Step.read
  split
  · exact fun h => nomatch h
  · next c t =>
      split
      · simp only
        split <;> exact fun h => nomatch h
      · split
        · split
          · exact fun h => nomatch h
          · exact fun h => nomatch h
          · next name _ _ _ =>
              intro h
              have hitem := eq_error_of_map_eq_error _ _ _ h
              rw [itemStep] at hitem
              exact index?_ne_failure name f (eq_error_of_map_eq_error _ _ _ hitem)
        · exact fun h => nomatch h

theorem arrives_part (u : Text) (step : Step) : Arrives step.IsByName (part (.str u) step) := by
  rcases step with name | n | name
  · rw [part]
    split
    · exact .kind _ trivial
    · split
      · exact .method _ _ trivial
      · exact .absent _ trivial
  · rw [part]
    cases u[n]? with
    | none => exact .unusable
    | some c => exact .text [c]
  · exact .absent _ trivial

theorem arrives_partOfKind (k : Text) (step : Step) : Arrives True (partOfKind k step) := by
  rcases step with name | n | name
  · rw [partOfKind]
    split
    · exact .kind _ trivial
    · split
      · exact .text _
      · split
        · exact .text _
        · exact .absent _ trivial
  · exact .absent _ trivial
  · exact .absent _ trivial

theorem arrives_partOfMethod (owner method : Text) (step : Step) :
    Arrives True (partOfMethod owner method step) := by
  rcases step with name | n | name
  · rw [partOfMethod]
    split
    · exact .kind _ trivial
    · split
      · exact .text _
      · split
        · exact .text _
        · exact .absent _ trivial
  · exact .absent _ trivial
  · exact .absent _ trivial

theorem follow_succ (r : Referent) (fuel : Nat) (t : Text) (ht : t ≠ []) :
    follow r (fuel + 1) t = Step.read t >>= fun next =>
      r.part next.1 >>= fun r => follow r fuel next.2 := by
  rw [follow]
  exact ht

theorem LeadsByName.of_read (t rest : Text) (step : Step) (h : Step.read t = .ok (step, rest))
    (hnamed : step.IsByName ∨ LeadsByName rest) : LeadsByName t := by
  rcases step with name | n | name
  · exact .here t rest _ h trivial
  · exact .beyond t rest n h (hnamed.resolve_left id)
  · exact .here t rest _ h trivial

theorem Arrives.part {named : Prop} {r : Referent} (h : Arrives named (.ok r)) (step : Step) :
    Arrives (named ∨ step.IsByName) (r.part step) := by
  cases h with
  | text u => exact (arrives_part u step).mono .inr
  | kind k h => exact (arrives_partOfKind k step).mono fun _ => .inl h
  | method owner name h => exact (arrives_partOfMethod owner name step).mono fun _ => .inl h

/-- Going on ends at a text or makes the template unusable, unless it goes on from a kind or a
method or there is a step by name. -/
theorem Arrives.follow {named : Prop} {r : Referent} (h : Arrives named (.ok r)) (fuel : Nat)
    (t : Text) : Arrives (named ∨ LeadsByName t) (follow r fuel t) := by
  induction fuel generalizing named r t with
  | zero =>
      cases t with
      | nil => exact h.mono .inl
      | cons c t => exact .unusable
  | succ fuel ih =>
      by_cases ht : t = []
      · rw [ht]
        exact h.mono .inl
      rw [follow_succ r fuel t ht]
      rcases hread : Step.read t with e | ⟨step, rest⟩
      · cases e with
        | unusable => exact .unusable
        | failure f => exact absurd hread (Step.read_ne_failure t f)
      · have hfurther : (named ∨ step.IsByName) ∨ LeadsByName rest → named ∨ LeadsByName t :=
          fun h => (or_assoc.1 h).imp_right (.of_read t rest step hread)
        have hpart := h.part step
        simp only [bind, Except.bind]
        cases hnext : r.part step with
        | ok r' => exact (ih (hnext ▸ hpart) rest).mono hfurther
        | error e =>
            rw [hnext] at hpart
            cases hpart with
            | unusable => exact .unusable
            | absent f h => exact .absent f (hfurther (.inl h))

theorem exists_of_lookup_ofTexts (arguments : List (Text × Text)) (name : Text) (v : Value)
    (h : (ofTexts arguments).lookup name = some v) : ∃ t, v = .str t := by
  induction arguments with
  | nil => exact nomatch h
  | cons a rest ih =>
      rw [ofTexts, List.map_cons, List.lookup_cons] at h
      split at h
      · exact ⟨a.2, (Option.some.inj h).symm⟩
      · exact ih h

theorem resolve_eq_bind (arguments : Arguments) (p : Placeholder) :
    resolve arguments p.name = index? (p.name.takeWhile (!startsStep ·)) >>= fun n =>
      if (p.name.takeWhile (!startsStep ·)).isEmpty || n.isSome then .error .unusable
      else
        match arguments.lookup (p.name.takeWhile (!startsStep ·)) with
        | none => .error .unusable
        | some v => follow (.value v) p.way.length p.way := by
  rw [resolve]
  cases index? (p.name.takeWhile (!startsStep ·)) with
  | error e => rfl
  | ok n =>
      simp only [bind, Except.bind]
      split
      · rfl
      · cases arguments.lookup (p.name.takeWhile (!startsStep ·)) <;> rfl

theorem arrives_resolve (arguments : List (Text × Text)) (p : Placeholder) :
    Arrives (LeadsByName p.way) (resolve (ofTexts arguments) p.name) := by
  rw [resolve_eq_bind]
  rcases hindex : index? (p.name.takeWhile (!startsStep ·)) with e | n
  · cases e with
    | unusable => exact .unusable
    | failure f => exact absurd hindex (index?_ne_failure _ f)
  · simp only [bind, Except.bind]
    split
    · exact .unusable
    · cases hlookup : (ofTexts arguments).lookup (p.name.takeWhile (!startsStep ·)) with
      | none => exact .unusable
      | some v =>
          obtain ⟨t, rfl⟩ := exists_of_lookup_ofTexts arguments _ v hlookup
          exact (Arrives.follow (.text t) _ p.way).mono fun h => h.resolve_left id

theorem arrives_convert (named : Prop) (conversion : Option CodePoint) (r : Referent)
    (h : Arrives named (.ok r)) : Arrives named (r.convert conversion) := by
  unfold Referent.convert
  split
  · exact h
  · split
    · exact .text _
    · split
      · exact .text _
      · split
        · exact .text _
        · exact .unusable

end Ways

end Template

namespace Layout

/-- Whether a layout asks for a width that no text can have. -/
def IsTooWide (layout : Text) : Prop := ∃ l, read false layout = some l ∧ capacity < l.width

theorem text_eq_failure (l : Layout) (t : Text) (f : Failure)
    (h : l.text t = .error (.failure f)) : f = .range .width ∧ capacity < l.width := by
  rw [text] at h
  split at h
  · exact nomatch h
  · rcases bind_eq_error_cases l.checkWidth _ _ h with h | ⟨u, -, h⟩
    · rw [checkWidth] at h
      split at h
      · next hwidth => exact ⟨(TemplateFault.failure.inj (Except.error.inj h)).symm, hwidth⟩
      · exact nomatch h
    · exact nomatch h

/-- A text fails to be laid out only if it would be too wide. -/
theorem value_str_eq_failure (layout t : Text) (f : Failure)
    (h : value layout (.str t) = .error (.failure f)) : f = .range .width ∧ IsTooWide layout := by
  rw [value] at h
  simp only at h
  split at h
  · exact nomatch h
  · split at h
    · next l hread =>
        obtain ⟨hf, hwidth⟩ := text_eq_failure l t f h
        exact ⟨hf, l, hread, hwidth⟩
    · exact nomatch h

end Layout

namespace Template

/-- Why a placeholder fails, if all arguments are texts: there is a step by name, or its layout
fails, or the layout asks for too wide a text. -/
theorem filled_eq_failure_cases (inner : Text → Except TemplateFault Text)
    (arguments : List (Text × Text)) (p : Placeholder) (f : Failure)
    (h : p.filled inner (ofTexts arguments) = .error (.failure f)) :
    (LeadsByName p.way ∧ ∃ g, f = .placeholder g) ∨
      p.layoutBy inner = .error (.failure f) ∨
      (f = .range .width ∧ ∃ layout, p.layoutBy inner = .ok layout ∧ Layout.IsTooWide layout) := by
  have hresolve := arrives_resolve arguments p
  rw [Placeholder.filled] at h
  rcases bind_eq_error_cases _ _ _ h with h | ⟨r, hr, h⟩
  · rw [h] at hresolve
    cases hresolve with
    | absent g hnamed => exact .inl ⟨hnamed, g, rfl⟩
  rw [hr] at hresolve
  have hconvert := arrives_convert _ p.conversion r hresolve
  rcases bind_eq_error_cases _ _ _ h with h | ⟨r', hr', h⟩
  · rw [h] at hconvert
    cases hconvert with
    | absent g hnamed => exact .inl ⟨hnamed, g, rfl⟩
  rw [hr'] at hconvert
  rcases bind_eq_error_cases _ _ _ h with h | ⟨layout, hlayout, h⟩
  · exact .inr (.inl h)
  cases hconvert with
  | text t =>
      obtain ⟨hf, hwide⟩ := Layout.value_str_eq_failure layout t f h
      exact .inr (.inr ⟨hf, layout, hlayout, hwide⟩)
  | kind k hnamed =>
      rw [Referent.laidOut] at h
      split at h
      · exact nomatch h
      · exact .inl ⟨hnamed, _, (TemplateFault.failure.inj (Except.error.inj h)).symm⟩
  | method owner name hnamed =>
      rw [Referent.laidOut] at h
      split at h
      · exact nomatch h
      · exact .inl ⟨hnamed, _, (TemplateFault.failure.inj (Except.error.inj h)).symm⟩

/-- Whether a placeholder stands in a text. Of two equal braces one stands for itself. -/
inductive Stands (p : Placeholder) : Text → Prop
  | here (t rest : Text) (hsingle : t.head? ≠ some openBrace) (h : scan t = some (p, rest)) :
      Stands p (openBrace :: t)
  | beyond (t rest : Text) (q : Placeholder) (hsingle : t.head? ≠ some openBrace)
      (h : scan t = some (q, rest)) (hrest : Stands p rest) : Stands p (openBrace :: t)
  | double (c : CodePoint) (t : Text) (hbrace : c = openBrace ∨ c = closeBrace)
      (h : Stands p t) : Stands p (c :: c :: t)
  | literal (c : CodePoint) (t : Text) (hopen : c ≠ openBrace) (hclose : c ≠ closeBrace)
      (h : Stands p t) : Stands p (c :: t)

/-- Whether a placeholder stands in a text or in the layout of one that does. -/
inductive Within (p : Placeholder) : Text → Prop
  | outside (t : Text) (h : Stands p t) : Within p t
  | inside (t : Text) (q : Placeholder) (hq : Stands q t) (h : Within p q.layout) : Within p t

section Expansion

variable (inner : Text → Except TemplateFault Text) (arguments : Arguments)

theorem expandWith_placeholder (fuel : Nat) (t rest : Text) (p : Placeholder)
    (hsingle : t.head? ≠ some openBrace) (h : scan t = some (p, rest)) :
    expandWith inner arguments (fuel + 1) (openBrace :: t) =
      p.filled inner arguments >>= fun shown =>
        (expandWith inner arguments fuel rest).map (shown ++ ·) := by
  have hlaid : ∀ (r : Referent) (x : Except TemplateFault Text),
      (x >>= fun layout => r.laidOut layout >>= fun shown =>
        expandWith inner arguments fuel rest >>= fun more => pure (shown ++ more)) =
      (x >>= fun layout => r.laidOut layout) >>= fun shown =>
        (expandWith inner arguments fuel rest).map (shown ++ ·) := by
    intro r x
    cases x with
    | error e => rfl
    | ok layout =>
        simp only [bind, Except.bind]
        cases r.laidOut layout with
        | error e => rfl
        | ok shown => cases expandWith inner arguments fuel rest <;> rfl
  rw [expandWith, if_pos rfl, if_neg hsingle]
  simp only [h, Placeholder.filled, Placeholder.layoutBy]
  cases resolve arguments p.name with
  | error e => rfl
  | ok r =>
      simp only [bind, Except.bind]
      cases r.convert p.conversion with
      | error e => rfl
      | ok r =>
          simp only
          split
          · exact hlaid r (inner p.layout)
          · exact hlaid r (.ok p.layout)

theorem exists_of_expandWith_eq_failure (f : Failure) (fuel : Nat) (t : Text)
    (h : expandWith inner arguments fuel t = .error (.failure f)) :
    ∃ p, Stands p t ∧ p.filled inner arguments = .error (.failure f) := by
  induction fuel generalizing t with
  | zero => cases t <;> cases h
  | succ fuel ih =>
      cases t with
      | nil => cases h
      | cons c t =>
          by_cases hopen : c = openBrace
          · subst hopen
            by_cases hdouble : t.head? = some openBrace
            · rw [expandWith, if_pos rfl, if_pos hdouble] at h
              obtain ⟨p, hp, hfails⟩ := ih _ (eq_error_of_map_eq_error _ _ _ h)
              obtain ⟨u, rfl⟩ := List.head?_eq_some_iff.1 hdouble
              exact ⟨p, .double openBrace u (.inl rfl) hp, hfails⟩
            · cases hscan : scan t with
              | none =>
                  rw [expandWith, if_pos rfl, if_neg hdouble, hscan] at h
                  cases h
              | some r =>
                  obtain ⟨p, rest⟩ := r
                  rw [expandWith_placeholder inner arguments fuel t rest p hdouble hscan] at h
                  rcases bind_eq_error_cases _ _ _ h with h | ⟨shown, -, h⟩
                  · exact ⟨p, .here t rest hdouble hscan, h⟩
                  · obtain ⟨q, hq, hfails⟩ := ih _ (eq_error_of_map_eq_error _ _ _ h)
                    exact ⟨q, .beyond t rest p hdouble hscan hq, hfails⟩
          · rw [expandWith, if_neg hopen] at h
            by_cases hclose : c = closeBrace
            · subst hclose
              rw [if_pos rfl] at h
              split at h
              · next hdouble =>
                  obtain ⟨p, hp, hfails⟩ := ih _ (eq_error_of_map_eq_error _ _ _ h)
                  obtain ⟨u, rfl⟩ := List.head?_eq_some_iff.1 hdouble
                  exact ⟨p, .double closeBrace u (.inr rfl) hp, hfails⟩
              · cases h
            · rw [if_neg hclose] at h
              obtain ⟨p, hp, hfails⟩ := ih _ (eq_error_of_map_eq_error _ _ _ h)
              exact ⟨p, .literal c t hopen hclose hp, hfails⟩

end Expansion

/-- The failures with which filling a template may end: a placeholder goes on from its argument by
name, or the layout of one, in which the arguments are in place, asks for too wide a text. -/
inductive Escapes (arguments : Arguments) (t : Text) : Failure → Prop
  | part (p : Placeholder) (f : PlaceholderFault) (hp : Within p t) (h : LeadsByName p.way) :
      Escapes arguments t (.placeholder f)
  | width (p : Placeholder) (depth : Nat) (layout : Text) (hp : Within p t)
      (hlayout : p.layoutBy (expand arguments depth) = .ok layout) (h : Layout.IsTooWide layout) :
      Escapes arguments t (.range .width)

theorem Escapes.of_layout {arguments : Arguments} {p : Placeholder} {t : Text} {f : Failure}
    (hp : Stands p t) (h : Escapes arguments p.layout f) : Escapes arguments t f := by
  cases h with
  | part q f hq h => exact .part q f (.inside t p hp hq) h
  | width q depth layout hq hlayout h => exact .width q depth layout (.inside t p hp hq) hlayout h

/-- If all arguments are texts a text fails to be expanded in no other way. -/
theorem escapes_of_expand_eq_failure (arguments : List (Text × Text)) (f : Failure) (depth : Nat)
    (t : Text) (h : expand (ofTexts arguments) depth t = .error (.failure f)) :
    Escapes (ofTexts arguments) t f := by
  -- The layouts in a text are expanded one level less deep.
  induction depth generalizing t with
  | zero => cases h
  | succ depth ih =>
      obtain ⟨p, hp, hfails⟩ := exists_of_expandWith_eq_failure _ _ f t.length t h
      rcases filled_eq_failure_cases _ arguments p f hfails with
        ⟨hnamed, g, rfl⟩ | hlayout | ⟨rfl, layout, hlayout, hwide⟩
      · exact .part p g (.outside t hp) hnamed
      · rw [Placeholder.layoutBy] at hlayout
        split at hlayout
        · exact (ih p.layout hlayout).of_layout hp
        · cases hlayout
      · exact .width p depth layout (.outside t hp) hlayout hwide

theorem escapes_of_fill_eq_error (arguments : List (Text × Text)) (t : Text) (f : Failure)
    (h : fill (ofTexts arguments) t = .error f) : Escapes (ofTexts arguments) t f := by
  rw [fill] at h
  split at h
  · cases h
  · split at h
    · cases h
    · cases h
    · next g hexpand =>
        obtain rfl := Except.error.inj h
        exact escapes_of_expand_eq_failure arguments g nesting t hexpand

structure IsItemName (key : Text) : Prop where
  ne_nil : key ≠ []
  bracket_not_mem : CodePoint.scalar ']' ∉ key
  index : index? key = .ok none

section Item

variable {name key : Text} (hname : IsArgumentName name) (hkey : IsItemName key)

theorem scanName_bracketed (rest : Text) (h : CodePoint.scalar ']' ∉ key) :
    scanName true (key ++ .scalar ']' :: rest) =
      (scanName false rest).map fun (more, stop, after) =>
        (key ++ .scalar ']' :: more, stop, after) := by
  induction key with
  | nil => rfl
  | cons c t ih =>
      obtain ⟨hc, ht⟩ := List.ne_and_not_mem_of_not_mem_cons h
      have hfurther : decide (c ≠ .scalar ']') = true := decide_eq_true (Ne.symm hc)
      rw [List.cons_append, scanName, if_pos rfl, hfurther]
      simp only [ih ht, Option.map_map]
      rfl

include hkey

theorem read_item (rest : Text) :
    Step.read (.scalar '[' :: (key ++ .scalar ']' :: rest)) = .ok (.item key, rest) := by
  have hcut := Text.cut_append (.scalar ']') key rest hkey.bracket_not_mem
  have hitem : itemStep key = .ok (.item key) := by rw [itemStep, hkey.index]; rfl
  have hdot : (CodePoint.scalar '[' = CodePoint.scalar '.') = False := by decide
  obtain ⟨c, t, rfl⟩ := List.exists_cons_of_ne_nil hkey.ne_nil
  simp only [Step.read, hdot, if_false, if_true, hcut, hitem]
  rfl

include hname

theorem scan_item (after : Text) :
    scan (name ++ .scalar '[' :: (key ++ .scalar ']' :: closeBrace :: after)) =
      some (⟨name ++ .scalar '[' :: (key ++ [.scalar ']']), none, []⟩, after) := by
  have hopen : scanName false (.scalar '[' :: (key ++ .scalar ']' :: closeBrace :: after)) =
      (scanName true (key ++ .scalar ']' :: closeBrace :: after)).map fun (more, stop, after) =>
        (.scalar '[' :: more, stop, after) := rfl
  have hclose : scanName false (closeBrace :: after) = some ([], closeBrace, after) := rfl
  have hscan : scanName false (name ++ .scalar '[' ::
      (key ++ .scalar ']' :: closeBrace :: after)) =
      some (name ++ .scalar '[' :: (key ++ [.scalar ']']), closeBrace, after) := by
    rw [scanName_append_eq_map hname, hopen, scanName_bracketed _ hkey.bracket_not_mem, hclose]
    rfl
  rw [scan, hscan]
  rfl

theorem resolve_item (arguments : Arguments) (u : Text)
    (hlookup : arguments.lookup name = some (.str u)) :
    resolve arguments (name ++ .scalar '[' :: (key ++ [.scalar ']'])) =
      fault (.textIndex (Value.str u).typeName) := by
  have hsteps : ∀ c ∈ name, (!startsStep c) = true := fun c hc => by simp [(hname.plain c hc).2.2]
  have hstart : (!startsStep (.scalar '[')) = false := rfl
  let p : Placeholder := ⟨name ++ .scalar '[' :: (key ++ [.scalar ']']), none, []⟩
  have hfirst : p.name.takeWhile (!startsStep ·) = name := by
    rw [List.takeWhile_append_of_pos hsteps, List.takeWhile_cons_of_neg (by simp [hstart]),
      List.append_nil]
  have hway : p.way = .scalar '[' :: (key ++ [.scalar ']']) := by
    rw [Placeholder.way, List.dropWhile_append_of_pos hsteps,
      List.dropWhile_cons_of_neg (by simp [hstart])]
  have hempty : name.isEmpty = false := by simpa using hname.ne_nil
  have hresolve := resolve_eq_bind arguments p
  rw [hfirst, hway, hname.index] at hresolve
  refine hresolve.trans ?_
  simp only [bind, Except.bind, hempty, Option.isSome_none, Bool.or_self, Bool.false_eq_true,
    if_false, hlookup, List.length_cons]
  rw [follow_succ _ _ _ (List.cons_ne_nil _ _), read_item hkey []]
  rfl

/-- With a text as its argument, a placeholder that asks for an item by a name fails, whatever
stands around it. -/
theorem fill_item_eq_error (before after : Text) (hbefore : IsLiteral before)
    (arguments : Arguments) (u : Text) (hlookup : arguments.lookup name = some (.str u)) :
    fill arguments (before ++ openBrace ::
        (name ++ .scalar '[' :: (key ++ .scalar ']' :: closeBrace :: after))) =
      .error (.placeholder (.textIndex (Value.str u).typeName)) := by
  have hargs : arguments.isEmpty = false := by
    cases arguments with
    | nil => cases hlookup
    | cons a as => rfl
  have hsingle : (name ++ .scalar '[' ::
      (key ++ .scalar ']' :: closeBrace :: after)).head? ≠ some openBrace := by
    obtain ⟨c, t, rfl⟩ := List.exists_cons_of_ne_nil hname.ne_nil
    have hc := (hname.plain c List.mem_cons_self).1
    simpa using hc
  have hexpand : expand arguments nesting (before ++ openBrace ::
      (name ++ .scalar '[' :: (key ++ .scalar ']' :: closeBrace :: after))) =
      fault (.textIndex (Value.str u).typeName) := by
    rw [nesting, expand, List.length_append, expandWith_literal_append _ _ _ _ _ hbefore,
      List.length_cons, expandWith_placeholder _ _ _ _ after _ hsingle (scan_item hname hkey after),
      Placeholder.filled, resolve_item hname hkey arguments u hlookup]
    rfl
  rw [fill, hargs, if_neg Bool.false_ne_true, hexpand]
  rfl

end Item

end Template

end LocaleKeys
