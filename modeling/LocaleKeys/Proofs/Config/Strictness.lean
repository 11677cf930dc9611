import LocaleKeys.Config.Settings
import LocaleKeys.Proofs.Success

/-!
# Strict and lenient settings

A strict reading of options refuses what a lenient one accepts with a warning, and nothing else: a
value is accepted strictly exactly if it is accepted leniently without a warning, and then it comes
to the same (`Unwarned`). All that depends on the strictness are the values that the options come to
(`Choices`); what is made of them does not (`resolve_eq_settle`). So the two readings give the same
settings wherever the lenient one has nothing to warn about (`strict_iff_unwarned`).
-/

namespace LocaleKeys

/-- Whether one outcome is another one without warnings: they succeed alike where there is nothing
to warn about, and the first one succeeds nowhere else. -/
def Unwarned {α : Type} (warnings : α → List Text) (x y : Except Failure α) : Prop :=
  ∀ a, x = .ok a ↔ y = .ok a ∧ warnings a = []

namespace Unwarned

variable {α β : Type} {warnings : α → List Text}

theorem refl_of_ok (a : α) (h : warnings a = []) :
    Unwarned warnings (.ok a) (.ok a : Except Failure α) := by
  intro b
  constructor
  · intro hb
    exact ⟨hb, Except.ok.inj hb ▸ h⟩
  · exact fun hb => hb.1

/-- What is refused goes with an outcome that has warnings. -/
theorem of_error (e : Failure) (y : Except Failure α) (h : ∀ a, y = .ok a → warnings a ≠ []) :
    Unwarned warnings (.error e) y :=
  fun a => ⟨fun ha => (nomatch ha), fun ha => absurd ha.2 (h a ha.1)⟩

theorem bind {x y : Except Failure α} (h : Unwarned warnings x y) (warnings' : β → List Text)
    (k : α → Except Failure β) (hk : ∀ a b, k a = .ok b → warnings' b = warnings a) :
    Unwarned warnings' (x >>= k) (y >>= k) := by
  intro b
  constructor
  · intro hb
    obtain ⟨a, ha, hb⟩ := exists_of_bind_eq_ok x k b hb
    obtain ⟨hy, hnone⟩ := (h a).1 ha
    rw [hy, hk a b hb]
    exact ⟨hb, hnone⟩
  · rintro ⟨hb, hnone⟩
    obtain ⟨a, ha, hb⟩ := exists_of_bind_eq_ok y k b hb
    rw [hk a b hb] at hnone
    rw [(h a).2 ⟨ha, hnone⟩]
    exact hb

theorem map {x y : Except Failure α} (h : Unwarned warnings x y) (warnings' : β → List Text)
    (f : α → β) (hf : ∀ a, warnings' (f a) = warnings a) :
    Unwarned warnings' (x.map f) (y.map f) :=
  h.bind warnings' (fun a => .ok (f a)) fun a _ hb => Except.ok.inj hb ▸ hf a

end Unwarned

namespace Coerced

/-- Accepting a value of the wrong type always leaves a warning. -/
theorem unwarned_reject {α : Type} (field expected : Text) (v : Value) :
    Unwarned Coerced.warnings (reject true field expected v : Except Failure (Coerced α))
      (reject false field expected v) := by
  refine .of_error _ _ fun c hc => ?_
  obtain rfl := Except.ok.inj hc
  exact List.cons_ne_nil _ _

theorem unwarned_numberText (field : Text) (v : Value) :
    Unwarned Coerced.warnings (numberText true field v) (numberText false field v) := by
  refine .of_error _ _ fun c hc => ?_
  obtain ⟨t, -, hc⟩ := exists_of_bind_eq_ok _ _ _ hc
  obtain rfl := Except.ok.inj hc
  exact List.cons_ne_nil _ _

theorem unwarned_asText (field : Text) (v : Value) :
    Unwarned Coerced.warnings (asText true field v) (asText false field v) := by
  cases v with
  | null => exact .refl_of_ok _ rfl
  | str t => exact .refl_of_ok _ rfl
  | int n => exact unwarned_numberText field (.int n)
  | float x => exact unwarned_numberText field (.float x)
  | bool b => exact unwarned_reject field "str" (.bool b)
  | date d => exact unwarned_reject field "str" (.date d)
  | dateTime t => exact unwarned_reject field "str" (.dateTime t)
  | list items => exact unwarned_reject field "str" (.list items)
  | dict entries => exact unwarned_reject field "str" (.dict entries)
  | other n s b => exact unwarned_reject field "str" (.other n s b)

theorem unwarned_converted (field : Text) (v : Value) (b? : Option Bool) (f : Bool → Coerced Bool)
    (hf : ∀ b, (f b).warnings ≠ []) :
    Unwarned Coerced.warnings (reject true field "bool" v)
      (match b? with
      | some b => .ok (f b)
      | none => reject false field "bool" v) := by
  cases b? with
  | none => exact unwarned_reject field "bool" v
  | some b =>
      refine .of_error _ _ fun c hc => ?_
      obtain rfl := Except.ok.inj hc
      exact hf b

theorem unwarned_asFlag (field : Text) (v : Value) :
    Unwarned Coerced.warnings (asFlag true field v) (asFlag false field v) := by
  have hconverted : ∀ source target : Bool → Text, ∀ b,
      (converted field (source b) (target b) b).warnings ≠ [] :=
    fun _ _ _ => List.cons_ne_nil _ _
  cases v with
  | bool b => exact .refl_of_ok _ rfl
  | null => exact .refl_of_ok _ rfl
  | str t => exact unwarned_converted field (.str t) (ofWord? t) _ (hconverted _ _)
  | int n => exact unwarned_converted field (.int n) (ofNumber? (.int n)) _ (hconverted _ _)
  | float x => exact unwarned_converted field (.float x) (ofNumber? (.float x)) _ (hconverted _ _)
  | date d => exact unwarned_reject field "bool" (.date d)
  | dateTime t => exact unwarned_reject field "bool" (.dateTime t)
  | list items => exact unwarned_reject field "bool" (.list items)
  | dict entries => exact unwarned_reject field "bool" (.dict entries)
  | other n s b => exact unwarned_reject field "bool" (.other n s b)

end Coerced

namespace Settings

/-- The values that all options come to, each with its warnings. -/
structure Choices where
  input : Chosen (Option Text)
  output : Chosen (Option Text)
  excludeKey : Chosen (Option Text)
  mode : Chosen (Option Text)
  formatter : Chosen (Option Text)
  quotes : Chosen Bool
  format : Chosen Bool
  noEmit : Chosen Bool

def Choices.warnings (c : Choices) : List Text :=
  c.input.warnings ++ c.output.warnings ++ c.excludeKey.warnings ++ c.mode.warnings ++
    c.formatter.warnings ++ c.quotes.warnings ++ c.format.warnings ++ c.noEmit.warnings

def choices (strict : Bool) (options : Options) : Except Failure Choices := do
  let input ← textOf strict options .inputPath
  let output ← textOf strict options .outputPath
  let excludeKey ← textOf strict options .excludeKey
  let mode ← textOf strict options .outputMode
  let formatter ← textOf strict options .formatter
  let quotes ← flagOf strict options .disableEslintQuotes
  let format ← flagOf strict options .format
  let noEmit ← flagOf strict options .noEmit
  return ⟨input, output, excludeKey, mode, formatter, quotes, format, noEmit⟩

structure AreChoices (strict : Bool) (options : Options) (c : Choices) : Prop where
  input : textOf strict options .inputPath = .ok c.input
  output : textOf strict options .outputPath = .ok c.output
  excludeKey : textOf strict options .excludeKey = .ok c.excludeKey
  mode : textOf strict options .outputMode = .ok c.mode
  formatter : textOf strict options .formatter = .ok c.formatter
  quotes : flagOf strict options .disableEslintQuotes = .ok c.quotes
  format : flagOf strict options .format = .ok c.format
  noEmit : flagOf strict options .noEmit = .ok c.noEmit

theorem choices_eq_ok_iff (strict : Bool) (options : Options) (c : Choices) :
    choices strict options = .ok c ↔ AreChoices strict options c := by
  constructor
  · intro h
    obtain ⟨input, hinput, h⟩ := exists_of_bind_eq_ok _ _ _ h
    obtain ⟨output, houtput, h⟩ := exists_of_bind_eq_ok _ _ _ h
    obtain ⟨excludeKey, hexcludeKey, h⟩ := exists_of_bind_eq_ok _ _ _ h
    obtain ⟨mode, hmode, h⟩ := exists_of_bind_eq_ok _ _ _ h
    obtain ⟨formatter, hformatter, h⟩ := exists_of_bind_eq_ok _ _ _ h
    obtain ⟨quotes, hquotes, h⟩ := exists_of_bind_eq_ok _ _ _ h
    obtain ⟨format, hformat, h⟩ := exists_of_bind_eq_ok _ _ _ h
    obtain ⟨noEmit, hnoEmit, h⟩ := exists_of_bind_eq_ok _ _ _ h
    obtain rfl := Except.ok.inj h
    exact ⟨hinput, houtput, hexcludeKey, hmode, hformatter, hquotes, hformat, hnoEmit⟩
  · rintro ⟨hinput, houtput, hexcludeKey, hmode, hformatter, hquotes, hformat, hnoEmit⟩
    simp only [choices, hinput, houtput, hexcludeKey, hmode, hformatter, hquotes, hformat, hnoEmit,
      bind, Except.bind, pure, Except.pure]

theorem unwarned_textOf (options : Options) (name : OptionName) :
    Unwarned Chosen.warnings (textOf true options name) (textOf false options name) :=
  (Coerced.unwarned_asText name.text (valueOf options name)).map _ _ fun _ => rfl

theorem unwarned_flagOf (options : Options) (name : OptionName) :
    Unwarned Chosen.warnings (flagOf true options name) (flagOf false options name) :=
  (Coerced.unwarned_asFlag name.text (valueOf options name)).map _ _ fun _ => rfl

theorem unwarned_choices (options : Options) :
    Unwarned Choices.warnings (choices true options) (choices false options) := by
  intro c
  have htext : ∀ name (v : Chosen (Option Text)), textOf true options name = .ok v ↔
      textOf false options name = .ok v ∧ v.warnings = [] := unwarned_textOf options
  have hflag : ∀ name (v : Chosen Bool), flagOf true options name = .ok v ↔
      flagOf false options name = .ok v ∧ v.warnings = [] := unwarned_flagOf options
  rw [choices_eq_ok_iff, choices_eq_ok_iff]
  constructor
  · intro h
    obtain ⟨input, hinput⟩ := (htext _ _).1 h.input
    obtain ⟨output, houtput⟩ := (htext _ _).1 h.output
    obtain ⟨excludeKey, hexcludeKey⟩ := (htext _ _).1 h.excludeKey
    obtain ⟨mode, hmode⟩ := (htext _ _).1 h.mode
    obtain ⟨formatter, hformatter⟩ := (htext _ _).1 h.formatter
    obtain ⟨quotes, hquotes⟩ := (hflag _ _).1 h.quotes
    obtain ⟨format, hformat⟩ := (hflag _ _).1 h.format
    obtain ⟨noEmit, hnoEmit⟩ := (hflag _ _).1 h.noEmit
    refine ⟨⟨input, output, excludeKey, mode, formatter, quotes, format, noEmit⟩, ?_⟩
    simp only [Choices.warnings, hinput, houtput, hexcludeKey, hmode, hformatter, hquotes, hformat,
      hnoEmit, List.append_nil]
  · rintro ⟨h, hnone⟩
    simp only [Choices.warnings, List.append_eq_nil_iff, and_assoc] at hnone
    obtain ⟨hinput, houtput, hexcludeKey, hmode, hformatter, hquotes, hformat, hnoEmit⟩ := hnone
    exact ⟨(htext _ _).2 ⟨h.input, hinput⟩, (htext _ _).2 ⟨h.output, houtput⟩,
      (htext _ _).2 ⟨h.excludeKey, hexcludeKey⟩, (htext _ _).2 ⟨h.mode, hmode⟩,
      (htext _ _).2 ⟨h.formatter, hformatter⟩, (hflag _ _).2 ⟨h.quotes, hquotes⟩,
      (hflag _ _).2 ⟨h.format, hformat⟩, (hflag _ _).2 ⟨h.noEmit, hnoEmit⟩⟩

variable (env : Environment) (here : Text) (root : Option Text)

/-- The settings that chosen values make up. Nothing here depends on the strictness. -/
def settle (c : Choices) : Except Failure Settings := do
  let root := match root with
    | none | some [] => here
    | some r => r
  let path (p : Option Text) := (Path.resolve env here p root).mapError Failure.ofName
  let some inputPath ← path c.input.value | throw (.problem .inputNotGiven)
  let some outputPath ← path c.output.value | throw (.problem .outputNotGiven)
  let modeText := c.mode.value.getD []
  if !outputModeNames.contains modeText.lower then throw (.problem (.invalidMode modeText))
  return { inputPath, outputPath
           excludeKey := c.excludeKey.value
           outputMode := modeText.lower
           disableEslintQuotes := c.quotes.value
           format := c.format.value
           noEmit := c.noEmit.value
           formatter := c.formatter.value.getD OptionName.defaultFormatter }

theorem resolve_eq_settle (strict : Bool) (options : Options) :
    resolve env here root strict options =
      choices strict options >>= fun c => (settle env here root c).map (·, c.warnings) := by
  unfold resolve choices settle
  dsimp only
  simp only [bind_assoc, pure_bind]
  refine bind_congr fun input => bind_congr fun output => bind_congr fun excludeKey =>
    bind_congr fun mode => bind_congr fun formatter => bind_congr fun quotes =>
    bind_congr fun format => bind_congr fun noEmit => ?_
  generalize (Path.resolve env here input.value _).mapError Failure.ofName = inputPath
  generalize (Path.resolve env here output.value _).mapError Failure.ofName = outputPath
  rcases inputPath with e | _ | inputPath
  · rfl
  · rfl
  rcases outputPath with e | _ | outputPath
  · rfl
  · rfl
  change (if _ then _ else _) = Except.map _ (if _ then _ else _)
  split
  · rfl
  · rfl

/-- A strict resolution of options is a lenient one without warnings. -/
theorem unwarned_resolve (options : Options) :
    Unwarned Prod.snd (resolve env here root true options)
      (resolve env here root false options) := by
  rw [resolve_eq_settle, resolve_eq_settle]
  exact (unwarned_choices options).bind Prod.snd _ fun c p hp => by
    obtain ⟨s, -, rfl⟩ := exists_of_map_eq_ok _ _ p hp
    rfl

/-- A value of any kind is accepted strictly exactly if it is accepted leniently without a warning;
then it comes to the same settings, and there is no warning either. -/
theorem strict_iff_unwarned (v : Value) (s : Settings) (warnings : List Text) :
    ofValue env here root true v = .ok (s, warnings) ↔
      ofValue env here root false v = .ok (s, []) ∧ warnings = [] := by
  have h : Unwarned Prod.snd (ofValue env here root true v) (ofValue env here root false v) := by
    cases v with
    | dict entries => exact unwarned_resolve env here root (namedOptions entries)
    | null => exact unwarned_resolve env here root []
    | _ =>
        refine .of_error _ _ fun p hp => ?_
        obtain ⟨⟨t, ws⟩, -, hp⟩ := exists_of_bind_eq_ok _ _ _ hp
        obtain rfl := Except.ok.inj hp
        exact List.cons_ne_nil _ _
  rw [h (s, warnings)]
  constructor
  · rintro ⟨hs, rfl⟩
    exact ⟨hs, rfl⟩
  · rintro ⟨hs, rfl⟩
    exact ⟨hs, rfl⟩

end Settings

end LocaleKeys
