import LocaleKeys.CommandLine.Session
import LocaleKeys.Proofs.Config.Layers
import LocaleKeys.Proofs.Run.Action

/-!
# Settings, one option at a time

Each of the settings of a run is what a single value comes to: the one that the command line gives
to its option, else the one of the option file, else the default (`Settings.chosen`). A value that
is of no use is replaced by the default, and never by the value of a lower layer
(`Settings.coerced`). Options therefore do not disturb each other (`settings_follow_their_options`).
-/

namespace LocaleKeys

/-- What an option comes to: a text, or none; or a truth value. -/
inductive Setting where
  | text (t : Option Text)
  | flag (b : Bool)
deriving DecidableEq, Repr

def OptionName.fallback (name : OptionName) : Setting :=
  match name.default with
  | .bool b => .flag b
  | .str t => .text (some t)
  | _ => .text none

namespace Settings

def get (s : Settings) : OptionName → Setting
  | .inputPath => .text s.inputPath
  | .outputPath => .text s.outputPath
  | .excludeKey => .text s.excludeKey
  | .outputMode => .text s.outputMode
  | .disableEslintQuotes => .flag s.disableEslintQuotes
  | .format => .flag s.format
  | .formatter => .text s.formatter
  | .noEmit => .flag s.noEmit

/-- What a value of an option comes to by its type: its text or truth value, or else what the
default of this option comes to. -/
def coerced (name : OptionName) (v : Value) : Except Failure Setting :=
  match name.fallback with
  | .flag b => (Coerced.asFlag false name.text v).map fun c => .flag (c.value?.getD b)
  | .text t => (Coerced.asText false name.text v).map fun c => .text (c.value?.or t)

def base (here : Text) : Option Text → Text
  | none | some [] => here
  | some r => r

variable (env : Environment) (here : Text) (root : Option Text)

/-- The form that the settings hold: absolute paths, and the output mode in lower case. -/
def normalized (name : OptionName) (x : Setting) : Except Failure Setting :=
  match name, x with
  | .inputPath, .text p | .outputPath, .text p =>
      ((Path.resolve env here p (base here root)).mapError Failure.ofName).map .text
  | .outputMode, .text m => .ok (.text (m.map Text.lower))
  | _, x => .ok x

def settled (name : OptionName) (v : Value) : Except Failure Setting := do
  normalized env here root name (← coerced name v)

theorem coerced_default (name : OptionName) : coerced name name.default = .ok name.fallback := by
  cases name <;> rfl

theorem settled_of_textOf_eq_ok (options : Options) (name : OptionName)
    (hname : name.fallback = .text (textFallback name)) (c : Chosen (Option Text))
    (h : textOf false options name = .ok c) (x : Setting)
    (hx : normalized env here root name (.text c.value) = .ok x) :
    settled env here root name (valueOf options name) = .ok x := by
  obtain ⟨c', hc', rfl⟩ := exists_of_map_eq_ok _ _ _ h
  rw [settled, coerced, hname]
  simp only [hc']
  exact hx

theorem settled_of_flagOf_eq_ok (options : Options) (name : OptionName)
    (hname : name.fallback = .flag false) (c : Chosen Bool)
    (h : flagOf false options name = .ok c) (x : Setting)
    (hx : normalized env here root name (.flag c.value) = .ok x) :
    settled env here root name (valueOf options name) = .ok x := by
  obtain ⟨c', hc', rfl⟩ := exists_of_map_eq_ok _ _ _ h
  rw [settled, coerced, hname]
  simp only [hc']
  exact hx

theorem exists_text_of_textOf_eq_ok (options : Options) (name : OptionName) (t : Text)
    (ht : textFallback name = some t) (c : Chosen (Option Text))
    (h : textOf false options name = .ok c) : ∃ t', c.value = some t' := by
  obtain ⟨c', -, rfl⟩ := exists_of_map_eq_ok _ _ _ h
  cases hvalue : c'.value? with
  | none => exact ⟨t, by simp only [ht, Option.none_or]⟩
  | some t' => exact ⟨t', by simp only [Option.some_or]⟩

theorem settled_of_resolve_eq_ok (options : Options) (s : Settings) (ws : List Text)
    (h : resolve env here root false options = .ok (s, ws)) (name : OptionName) :
    settled env here root name (valueOf options name) = .ok (s.get name) := by
  obtain ⟨input, hinput, h⟩ := exists_of_bind_eq_ok _ _ _ h
  obtain ⟨output, houtput, h⟩ := exists_of_bind_eq_ok _ _ _ h
  obtain ⟨excludeKey, hexcludeKey, h⟩ := exists_of_bind_eq_ok _ _ _ h
  obtain ⟨mode, hmode, h⟩ := exists_of_bind_eq_ok _ _ _ h
  obtain ⟨formatter, hformatter, h⟩ := exists_of_bind_eq_ok _ _ _ h
  obtain ⟨quotes, hquotes, h⟩ := exists_of_bind_eq_ok _ _ _ h
  obtain ⟨format, hformat, h⟩ := exists_of_bind_eq_ok _ _ _ h
  obtain ⟨noEmit, hnoEmit, h⟩ := exists_of_bind_eq_ok _ _ _ h
  obtain ⟨inputPath?, hinputPath, h⟩ := exists_of_bind_eq_ok _ _ _ h
  cases inputPath? with
  | none => exact nomatch h
  | some inputPath =>
  obtain ⟨outputPath?, houtputPath, h⟩ := exists_of_bind_eq_ok _ _ _ h
  cases outputPath? with
  | none => exact nomatch h
  | some outputPath =>
  dsimp only at h
  split at h
  · exact nomatch h
  obtain ⟨rfl, -⟩ := Prod.mk.inj (Except.ok.inj h)
  obtain ⟨modeText, hmodeText⟩ := exists_text_of_textOf_eq_ok options .outputMode _ rfl mode hmode
  obtain ⟨formatterText, hformatterText⟩ :=
    exists_text_of_textOf_eq_ok options .formatter _ rfl formatter hformatter
  -- each part of the settings was made from its own option alone
  cases name with
  | inputPath =>
      refine settled_of_textOf_eq_ok env here root options _ rfl input hinput _ ?_
      exact congrArg (Except.map Setting.text) hinputPath
  | outputPath =>
      refine settled_of_textOf_eq_ok env here root options _ rfl output houtput _ ?_
      exact congrArg (Except.map Setting.text) houtputPath
  | excludeKey =>
      exact settled_of_textOf_eq_ok env here root options _ rfl excludeKey hexcludeKey _ rfl
  | outputMode =>
      refine settled_of_textOf_eq_ok env here root options _ rfl mode hmode _ ?_
      simp only [normalized, get, hmodeText, Option.map_some, Option.getD_some]
  | formatter =>
      refine settled_of_textOf_eq_ok env here root options _ rfl formatter hformatter _ ?_
      simp only [normalized, get, hformatterText, Option.getD_some]
  | disableEslintQuotes =>
      exact settled_of_flagOf_eq_ok env here root options _ rfl quotes hquotes _ rfl
  | format => exact settled_of_flagOf_eq_ok env here root options _ rfl format hformat _ rfl
  | noEmit => exact settled_of_flagOf_eq_ok env here root options _ rfl noEmit hnoEmit _ rfl

/-- The value of an option that counts: that of the command line if it is given there, else the last
one of the option file unless it is null, else the default. -/
def chosen (entries : List (Value × Value)) (a : Arguments) (name : OptionName) : Value :=
  match a.given name with
  | some v => v
  | none =>
      match (Layer.valuesOf name (FileOptions.named entries)).getLast? with
      | none | some .null => name.default
      | some v => v

theorem valueOf_overlay_overrides (path : Text) (entries : List (Value × Value)) (f : FileOptions)
    (h : FileOptions.ofEntries path entries = .ok f) (a : Arguments) (name : OptionName) :
    valueOf (Layer.overlay f.options a.overrides) name = chosen entries a name := by
  rw [valueOf, FileOptions.find?_overlay_overrides path entries f h, chosen]
  cases hgiven : a.given name with
  | none => rfl
  | some v =>
      cases v with
      | null => exact absurd hgiven (a.given_ne_some_null name)
      | _ => rfl

/-- Every setting is what the value that counts for its option comes to. -/
theorem settled_chosen (path : Text) (entries : List (Value × Value)) (f : FileOptions)
    (hf : FileOptions.ofEntries path entries = .ok f) (a : Arguments) (s : Settings)
    (ws : List Text)
    (hs : resolve env here root false (Layer.overlay f.options a.overrides) = .ok (s, ws))
    (name : OptionName) :
    settled env here root name (chosen entries a name) = .ok (s.get name) := by
  rw [← valueOf_overlay_overrides path entries f hf a name]
  exact settled_of_resolve_eq_ok env here root _ s ws hs name

/-- The settings that the layers of a command come to are what one value of each option comes to.
Two commands with the same values for an option have the same setting of it, whatever else their
option files and their command lines hold. -/
theorem settings_follow_their_options (path : Text) (entries : List (Value × Value))
    (f : FileOptions) (hf : FileOptions.ofEntries path entries = .ok f) (a : Arguments)
    (s : Settings) (ws : List Text)
    (hs : resolve env here root false (Layer.overlay f.options a.overrides) = .ok (s, ws)) :
    (∀ name, settled env here root name (chosen entries a name) = .ok (s.get name)) ∧
      ∀ (path' : Text) (entries' : List (Value × Value)) (f' : FileOptions) (a' : Arguments)
        (s' : Settings) (ws' : List Text), FileOptions.ofEntries path' entries' = .ok f' →
        resolve env here root false (Layer.overlay f'.options a'.overrides) = .ok (s', ws') →
        ∀ name, Layer.valuesOf name (FileOptions.named entries) =
            Layer.valuesOf name (FileOptions.named entries') →
          a.given name = a'.given name → s.get name = s'.get name := by
  have hsettled := settled_chosen env here root path entries f hf a s ws hs
  refine ⟨hsettled, ?_⟩
  intro path' entries' f' a' s' ws' hf' hs' name hentries hgiven
  have hsettled' := settled_chosen env here root path' entries' f' hf' a' s' ws' hs' name
  have hchosen : chosen entries a name = chosen entries' a' name := by
    rw [chosen, chosen, hentries, hgiven]
  rw [← hchosen] at hsettled'
  exact Except.ok.inj ((hsettled name).symm.trans hsettled')

theorem settings_follow_their_options_input :
    let entries : List (Value × Value) :=
      [(.str "input", .str " src "), (.str "output", .str "out"),
        (.str "outputMode", .str "Single"), (.str "formatter", .bool true),
        (.str "indent", .int 2)]
    let entries' : List (Value × Value) :=
      [(.str "no-emit", .str "maybe"), (.str "output_path", .null), (.str "input", .str " src ")]
    let a : Arguments := { outputMode := some "" }
    let a' : Arguments := { outputPath := some "lib", format := true }
    ∃ f s ws f' s' ws', FileOptions.ofEntries "a.json" entries = .ok f ∧
      resolve {} "/w" (some "/w") false (Layer.overlay f.options a.overrides) = .ok (s, ws) ∧
      FileOptions.ofEntries "b.json" entries' = .ok f' ∧
      resolve {} "/w" (some "/w") false (Layer.overlay f'.options a'.overrides) = .ok (s', ws') ∧
      settled {} "/w" (some "/w") .outputMode (.str "") = .ok (s.get .outputMode) ∧
      s.outputMode = "dual" ∧ s.get .inputPath = s'.get .inputPath := by
  intro entries entries' a a'
  refine ⟨_, _, _, _, _, _, rfl, rfl, rfl, rfl, ?_, rfl, ?_⟩
  · exact (settings_follow_their_options {} "/w" (some "/w") "a.json" entries _ rfl a _ _ rfl).1
      .outputMode
  · exact (settings_follow_their_options {} "/w" (some "/w") "a.json" entries _ rfl a _ _ rfl).2
      "b.json" entries' _ a' _ _ rfl rfl .inputPath rfl rfl

end Settings

end LocaleKeys
