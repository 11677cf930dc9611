import LocaleKeys.Proofs.Config.Fields
import LocaleKeys.Proofs.Config.Rejection
import LocaleKeys.Proofs.Config.Strictness
import LocaleKeys.Proofs.Json.Stored
import LocaleKeys.Proofs.Path.Canonical

/-!
# Settings that come to themselves

Settings are in a form that resolving does not change any more (`IsSettled`): texts without blanks
around them, canonical paths, and a known mode in lower case. So options that hold the values of
settings come to these settings, without a warning (`resolve_of_isSettled`), whether they are given
as a document or read from an option file that holds what `--dump-config` prints.
-/

namespace LocaleKeys

def Setting.value : Setting → Value
  | .text none => .null
  | .text (some t) => .str t
  | .flag b => .bool b

namespace Coerced

variable (strict : Bool) (field : Text) (v : Value)

theorem value?_of_reject_eq_ok {α : Type} (expected : Text) (c : Coerced α)
    (h : reject strict field expected v = .ok c) : c.value? = none := by
  cases strict with
  | true => exact nomatch h
  | false => exact Except.ok.inj h ▸ rfl

theorem isProper_of_numberText (hv : ∀ t, v.message = .ok t → t.IsProper) (c : Coerced Text)
    (h : numberText strict field v = .ok c) (t : Text) (ht : c.value? = some t) : t.IsProper := by
  cases strict with
  | true => exact nomatch ht.symm.trans (value?_of_reject_eq_ok true field v "str" c h)
  | false =>
      obtain ⟨u, hu, h⟩ := exists_of_bind_eq_ok _ _ _ h
      have hvalue : some u = some t := (congrArg Coerced.value? (Except.ok.inj h)).trans ht
      exact Option.some.inj hvalue ▸ hv u ((mapError_eq_ok_iff _ _ _).1 hu)

theorem isProper_of_asText (c : Coerced Text) (h : asText strict field v = .ok c) (t : Text)
    (ht : c.value? = some t) : t.IsProper := by
  have hreject : reject strict field "str" v = .ok c → t.IsProper := fun h =>
    nomatch ht.symm.trans (value?_of_reject_eq_ok strict field v "str" c h)
  cases v with
  | null => exact nomatch ht.symm.trans (congrArg Coerced.value? (Except.ok.inj h)).symm
  | str u =>
      rw [← Except.ok.inj h] at ht
      simp only at ht
      split at ht
      · exact nomatch ht
      · next hu =>
          obtain rfl := Option.some.inj ht
          exact ⟨Text.hasBareEnds_trim u, fun hnil => hu (List.isEmpty_iff.2 hnil)⟩
  | int n => exact isProper_of_numberText strict field _ (Value.isProper_of_message_int n) c h t ht
  | float x =>
      exact isProper_of_numberText strict field _ (Value.isProper_of_message_float x) c h t ht
  | bool b => exact hreject h
  | date d => exact hreject h
  | dateTime d => exact hreject h
  | list items => exact hreject h
  | dict entries => exact hreject h
  | other name shown truthy => exact hreject h

theorem asText_of_isProper (t : Text) (ht : t.IsProper) :
    asText strict field (.str t) = .ok { value? := some t } := by
  have hne : t.isEmpty = false := by
    rw [← Bool.not_eq_true, List.isEmpty_iff]
    exact ht.ne_nil
  rw [asText, Text.trim_of_hasBareEnds t ht.ends, hne]
  rfl

end Coerced

namespace Settings

/-- Whether settings have the form that resolving gives to all settings. -/
structure IsSettled (s : Settings) : Prop where
  inputPath : Path.IsCanonical s.inputPath
  outputPath : Path.IsCanonical s.outputPath
  excludeKey : ∀ k, s.excludeKey = some k → k.IsProper
  outputMode : s.outputMode ∈ outputModeNames
  formatter : s.formatter.IsProper

section Resolving

variable (env : Environment) (here : Text) (root : Option Text) (strict : Bool) (options : Options)

theorem exists_of_settle_eq_ok (c : Choices) (s : Settings)
    (h : settle env here root c = .ok s) :
    Path.resolve env here c.input.value (base here root) = .ok (some s.inputPath) ∧
      Path.resolve env here c.output.value (base here root) = .ok (some s.outputPath) ∧
      s.outputMode ∈ outputModeNames ∧ s.excludeKey = c.excludeKey.value ∧
      s.formatter = c.formatter.value.getD OptionName.defaultFormatter := by
  obtain ⟨inputPath?, hinputPath, h⟩ := exists_of_bind_eq_ok _ _ _ h
  cases inputPath? with
  | none => exact nomatch h
  | some inputPath =>
  obtain ⟨outputPath?, houtputPath, h⟩ := exists_of_bind_eq_ok _ _ _ h
  cases outputPath? with
  | none => exact nomatch h
  | some outputPath =>
  dsimp only at h
  split at h
  · exact nomatch h
  · next hmode =>
      obtain rfl := Except.ok.inj h
      refine ⟨(mapError_eq_ok_iff _ _ _).1 hinputPath, (mapError_eq_ok_iff _ _ _).1 houtputPath,
        ?_, rfl, rfl⟩
      simpa using hmode

theorem isProper_of_textOf (name : OptionName) (hdefault : ∀ t, textFallback name = some t →
    t.IsProper) (c : Chosen (Option Text)) (h : textOf strict options name = .ok c) (t : Text)
    (ht : c.value = some t) : t.IsProper := by
  obtain ⟨c', hc', rfl⟩ := exists_of_map_eq_ok _ _ _ h
  cases hvalue : c'.value? with
  | none =>
      refine hdefault t ?_
      simpa only [hvalue, Option.none_or] using ht
  | some u =>
      obtain rfl : u = t := by simpa only [hvalue, Option.some_or, Option.some.injEq] using ht
      exact Coerced.isProper_of_asText strict name.text _ c' hc' u hvalue

/-- Settings that options come to are settled. -/
theorem isSettled_of_resolve (hhere : Path.isAbsolute here = true) (s : Settings) (ws : List Text)
    (h : resolve env here root strict options = .ok (s, ws)) : s.IsSettled := by
  rw [resolve_eq_settle] at h
  obtain ⟨c, hc, h⟩ := exists_of_bind_eq_ok _ _ _ h
  obtain ⟨s', hs', h⟩ := exists_of_map_eq_ok _ _ _ h
  obtain ⟨rfl, -⟩ := Prod.mk.inj h
  rw [choices_eq_ok_iff] at hc
  obtain ⟨hinput, houtput, hmode, hkey, hformatter⟩ :=
    exists_of_settle_eq_ok env here root c s' hs'
  have hprettier : OptionName.defaultFormatter.IsProper :=
    ⟨Text.hasBareEnds_of_forall _ (by decide), by decide⟩
  refine ⟨Path.isCanonical_of_resolve env here _ _ _ hhere hinput,
    Path.isCanonical_of_resolve env here _ _ _ hhere houtput, fun k hk => ?_, hmode, ?_⟩
  · refine isProper_of_textOf strict options .excludeKey (fun t ht => nomatch ht) _
      hc.excludeKey k ?_
    rw [← hkey, hk]
  · rw [hformatter]
    cases hvalue : c.formatter.value with
    | none => exact hprettier
    | some t =>
        refine isProper_of_textOf strict options .formatter (fun u hu => ?_) _ hc.formatter t hvalue
        exact Option.some.inj hu ▸ hprettier

theorem textOf_of_isProper (name : OptionName) (t : Text) (hvalue : valueOf options name = .str t)
    (ht : t.IsProper) : textOf strict options name = .ok ⟨some t, []⟩ := by
  rw [textOf, hvalue, Coerced.asText_of_isProper strict name.text t ht]
  rfl

theorem textOf_of_null (name : OptionName) (hvalue : valueOf options name = .null) :
    textOf strict options name = .ok ⟨textFallback name, []⟩ := by
  rw [textOf, hvalue]
  rfl

theorem flagOf_of_bool (name : OptionName) (b : Bool) (hvalue : valueOf options name = .bool b) :
    flagOf strict options name = .ok ⟨b, []⟩ := by
  rw [flagOf, hvalue]
  rfl

end Resolving

section Own

variable (s : Settings)

/-- The values that settings come to, none of which needs a warning. -/
def ownChoices : Choices where
  input := ⟨some s.inputPath, []⟩
  output := ⟨some s.outputPath, []⟩
  excludeKey := ⟨s.excludeKey, []⟩
  mode := ⟨some s.outputMode, []⟩
  formatter := ⟨some s.formatter, []⟩
  quotes := ⟨s.disableEslintQuotes, []⟩
  format := ⟨s.format, []⟩
  noEmit := ⟨s.noEmit, []⟩

def ownOptions : Options :=
  [(.inputPath, .str s.inputPath), (.outputPath, .str s.outputPath),
    (.excludeKey, (s.get .excludeKey).value), (.outputMode, .str s.outputMode),
    (.disableEslintQuotes, .bool s.disableEslintQuotes), (.format, .bool s.format),
    (.noEmit, .bool s.noEmit), (.formatter, .str s.formatter)]

theorem valueOf_ownOptions (name : OptionName) :
    valueOf s.ownOptions name = (s.get name).value := by
  cases name with
  | excludeKey =>
      obtain ⟨_, _, excludeKey, _, _, _, _, _⟩ := s
      cases excludeKey <;> rfl
  | _ => rfl

theorem isProper_outputModeNames : ∀ m ∈ outputModeNames, m.IsProper := by
  have hnames : ∀ m ∈ outputModeNames, (∀ c ∈ m, c.isBlank = false) ∧ m ≠ [] := by decide
  exact fun m hm => ⟨Text.hasBareEnds_of_forall m (hnames m hm).1, (hnames m hm).2⟩

variable (hs : s.IsSettled) (hinput : Path.IsLiteral s.inputPath)
  (houtput : Path.IsLiteral s.outputPath)
include hs hinput houtput

theorem areChoices_ownOptions (strict : Bool) : AreChoices strict s.ownOptions s.ownChoices where
  input := textOf_of_isProper strict _ _ _ (s.valueOf_ownOptions .inputPath)
    (Path.isProper_of_isCanonical _ hs.inputPath hinput)
  output := textOf_of_isProper strict _ _ _ (s.valueOf_ownOptions .outputPath)
    (Path.isProper_of_isCanonical _ hs.outputPath houtput)
  excludeKey := by
    have hvalue := s.valueOf_ownOptions .excludeKey
    rw [ownChoices]
    cases hkey : s.excludeKey with
    | none =>
        rw [get, hkey] at hvalue
        exact textOf_of_null strict _ _ hvalue
    | some k =>
        rw [get, hkey] at hvalue
        exact textOf_of_isProper strict _ _ k hvalue (hs.excludeKey k hkey)
  mode := textOf_of_isProper strict _ _ _ (s.valueOf_ownOptions .outputMode)
    (isProper_outputModeNames _ hs.outputMode)
  formatter := textOf_of_isProper strict _ _ _ (s.valueOf_ownOptions .formatter) hs.formatter
  quotes := flagOf_of_bool strict _ _ _ (s.valueOf_ownOptions .disableEslintQuotes)
  format := flagOf_of_bool strict _ _ _ (s.valueOf_ownOptions .format)
  noEmit := flagOf_of_bool strict _ _ _ (s.valueOf_ownOptions .noEmit)

variable (env : Environment) (here : Text) (root : Option Text)

theorem settle_ownChoices : settle env here root s.ownChoices = .ok s := by
  have hlower : ∀ m ∈ outputModeNames, m.lower = m := by decide +kernel
  have hmode : outputModeNames.contains s.outputMode = true := by simpa using hs.outputMode
  unfold settle
  simp only [ownChoices, Path.resolve_of_isCanonical env here _ _ hs.inputPath hinput,
    Path.resolve_of_isCanonical env here _ _ hs.outputPath houtput, Except.mapError, bind,
    Except.bind, Option.getD_some, hlower _ hs.outputMode, hmode]
  rfl

/-- Options with the values of settled settings come to these settings, without a warning. -/
theorem resolve_of_isSettled (strict : Bool) :
    resolve env here root strict s.ownOptions = .ok (s, []) := by
  rw [resolve_eq_settle,
    (choices_eq_ok_iff _ _ _).2 (s.areChoices_ownOptions hs hinput houtput strict)]
  simp only [bind, Except.bind, s.settle_ownChoices hs hinput houtput env here root]
  rfl

end Own

section Documents

variable (s : Settings)

theorem namedOptions_toMembers : namedOptions (Value.ofMembers s.toMembers) = s.ownOptions := by
  obtain ⟨_, _, excludeKey, _, _, _, _, _⟩ := s
  cases excludeKey <;> rfl

def texts : List Text :=
  [s.inputPath, s.outputPath, s.outputMode, s.formatter] ++ s.excludeKey.toList

def fileMember (config : Option Text) : Text × Json :=
  ("config_file", match config with
    | none => .null
    | some p => .str p)

theorem dump_eq (config : Option Text) :
    Session.dump s config = .obj (s.toMembers ++ [fileMember config]) := rfl

/-- As an option file, what `--dump-config` prints gives the options with the values of the
settings; its last member is no option. -/
theorem ofEntries_dump (path : Text) (config : Option Text) :
    FileOptions.ofEntries path (Value.ofMembers (s.toMembers ++ [fileMember config])) =
      .ok ⟨s.ownOptions, [FileOptions.unknownWarning path "config_file"]⟩ := by
  obtain ⟨_, _, excludeKey, _, _, _, _, _⟩ := s
  cases excludeKey <;> cases config <;> rfl

theorem isPlain_dump (config : Option Text)
    (h : ∀ t ∈ s.texts ++ config.toList, t.isScalar = true) : (Session.dump s config).IsPlain := by
  have hnames : (s.toMembers ++ [fileMember config]).map Prod.fst =
      [OptionName.inputPath, .outputPath, .excludeKey, .outputMode, .disableEslintQuotes, .format,
        .noEmit, .formatter].map OptionName.text ++ [Text.ofString "config_file"] := rfl
  have hkeys : ∀ k ∈ (s.toMembers ++ [fileMember config]).map Prod.fst, k.isScalar = true := by
    rw [hnames]
    decide +kernel
  have hoptional : ∀ t? : Option Text, (∀ t ∈ t?.toList, t.isScalar = true) →
      (match t? with
        | none => Json.null
        | some t => .str t).IsPlain := by
    intro t? ht?
    cases t? with
    | none => exact .null
    | some t => exact .str t (ht? t (List.mem_singleton_self t))
  rw [texts, List.forall_mem_append, List.forall_mem_append] at h
  obtain ⟨⟨htexts, hkey⟩, hconfig⟩ := h
  simp only [List.forall_mem_cons] at htexts
  obtain ⟨hinput, houtput, hmode, hformatter, -⟩ := htexts
  rw [dump_eq]
  refine .obj _ ?_ (fun m hm => hkeys m.1 (List.mem_map_of_mem hm)) ?_
  · rw [hnames]
    decide +kernel
  · simp only [toMembers, List.forall_mem_append, List.forall_mem_cons, List.not_mem_nil]
    exact ⟨⟨.str _ hinput, .str _ houtput, hoptional _ hkey, .str _ hmode, .bool _, .bool _,
      .bool _, .str _ hformatter, nofun⟩, hoptional _ hconfig, nofun⟩

/-- What `--dump-config` prints, in a JSON file, is read as the options with the values of the
settings. -/
theorem exists_stored_dump (config : Option Text)
    (h : ∀ t ∈ s.texts ++ config.toList, t.isScalar = true) :
    ∃ bytes, Utf8.encode (Session.printLine (Session.dump s config).print) = .ok bytes ∧
      ∀ (host : Host) path store, host.content path store = .ok bytes →
        FileOptions.isYaml path = false → FileOptions.read host path store =
          .ok ⟨s.ownOptions, [FileOptions.unknownWarning path "config_file"]⟩ := by
  obtain ⟨bytes, cs, hencode, hdecode, hread⟩ :=
    (s.isPlain_dump config h).exists_stored (Session.dump s config)
  refine ⟨bytes, hencode, fun host path store hcontent hname => ?_⟩
  have hvalue : FileOptions.HoldsValue host path store (.ofJson (Session.dump s config)) :=
    .json cs _ hname ⟨bytes, hcontent, hdecode⟩ hread
  rw [FileOptions.read_of_holdsValue host path store _ hvalue]
  exact s.ofEntries_dump path config

end Documents

section FixedPoint

variable (env : Environment) (here : Text) (root : Option Text) (strict : Bool)

/-- Whatever a value of any kind comes to is settled. -/
theorem isSettled_of_ofValue (hhere : Path.isAbsolute here = true) (v : Value) (s : Settings)
    (ws : List Text) (h : ofValue env here root strict v = .ok (s, ws)) : s.IsSettled := by
  have hdefaults : ∀ ws', resolve env here root strict [] = .ok (s, ws') → s.IsSettled :=
    fun ws' h => isSettled_of_resolve env here root strict [] hhere s ws' h
  cases v with
  | dict entries => exact isSettled_of_resolve env here root strict _ hhere s ws h
  | null => exact hdefaults ws h
  | _ =>
      cases strict with
      | true => exact nomatch h
      | false =>
          obtain ⟨⟨s', ws'⟩, hs', h⟩ := exists_of_bind_eq_ok _ _ _ h
          obtain ⟨rfl, -⟩ := Prod.mk.inj (Except.ok.inj h)
          exact hdefaults ws' hs'

/-- Settings that a value comes to, and in whose paths nothing is expanded or trimmed any more, come
to themselves: as a document, with any variables and directories, strictly or not, without a
warning; and as an option file that holds what `--dump-config` prints, with the one warning that
`config_file` is no option. -/
theorem settings_come_to_themselves (hhere : Path.isAbsolute here = true) (v : Value)
    (s : Settings) (ws : List Text) (h : ofValue env here root strict v = .ok (s, ws))
    (hinput : Path.IsLiteral s.inputPath) (houtput : Path.IsLiteral s.outputPath) :
    (∀ env' here' root' strict',
      ofValue env' here' root' strict' (.ofJson (.obj s.toMembers)) = .ok (s, [])) ∧
    ∀ config : Option Text, (∀ t ∈ s.texts ++ config.toList, t.isScalar = true) →
      ∃ bytes, Utf8.encode (Session.printLine (Session.dump s config).print) = .ok bytes ∧
        ∀ (host : Host) path store, host.content path store = .ok bytes →
          FileOptions.isYaml path = false →
          ∃ f, FileOptions.read host path store = .ok f ∧
            f.warnings = ["Unknown option 'config_file' in '" ++ path ++ "' ignored."] ∧
            ∀ env' here' root' strict',
              resolve env' here' root' strict' f.options = .ok (s, []) := by
  have hs := isSettled_of_ofValue env here root strict hhere v s ws h
  have hresolve := s.resolve_of_isSettled hs hinput houtput
  refine ⟨fun env' here' root' strict' => ?_, fun config hscalar => ?_⟩
  · have hdocument : ofValue env' here' root' strict' (.ofJson (.obj s.toMembers)) =
        resolve env' here' root' strict' (namedOptions (Value.ofMembers s.toMembers)) := rfl
    rw [hdocument, namedOptions_toMembers]
    exact hresolve env' here' root' strict'
  · obtain ⟨bytes, hencode, hread⟩ := s.exists_stored_dump config hscalar
    refine ⟨bytes, hencode, fun host path store hcontent hname => ?_⟩
    exact ⟨_, hread host path store hcontent hname, rfl, hresolve⟩

def writtenValue : Value :=
  .dict [(.str "input_path", .str " ~/loc/../$PART "), (.str "output_path", .int 5),
    (.str "exclude_key", .int 7), (.str "output_mode", .str "Single"), (.str "format", .str " Yes")]

def writtenEnvironment : Environment := { bindings := [("HOME", "/home/u"), ("PART", "in")] }

def writtenSettings : Settings :=
  { inputPath := "/home/u/in", outputPath := "/p/5", excludeKey := some "7"
    outputMode := "single", format := true }

theorem settings_come_to_themselves_written :
    ofValue writtenEnvironment "/w" (some "/p") false writtenValue =
        .ok (writtenSettings,
          ["Field 'output_path' converted from number 5 to string.",
            "Field 'exclude_key' converted from number 7 to string.",
            "Field 'format' converted from ' Yes' to True."]) ∧
      ofValue {} "/" none true (.ofJson (.obj writtenSettings.toMembers)) =
        .ok (writtenSettings, []) ∧
      ∃ bytes, Utf8.encode (Session.printLine (Session.dump writtenSettings none).print) =
        .ok bytes ∧
        ∃ f, FileOptions.read bareHost "/c.json" ⟨[(["c.json"], .file bytes 0o644)]⟩ = .ok f ∧
          resolve {} "/" none true f.options = .ok (writtenSettings, []) := by
  obtain ⟨result, hwritten, hresult⟩ := exists_of_map_toOption_eq_some id
    (ofValue writtenEnvironment "/w" (some "/p") false writtenValue)
    (writtenSettings, ["Field 'output_path' converted from number 5 to string.",
      "Field 'exclude_key' converted from number 7 to string.",
      "Field 'format' converted from ' Yes' to True."]) (by decide +kernel)
  obtain rfl := hresult
  have hinput : Path.IsLiteral writtenSettings.inputPath := ⟨by decide, by decide⟩
  have houtput : Path.IsLiteral writtenSettings.outputPath := ⟨by decide, by decide⟩
  obtain ⟨hdocument, hfile⟩ := settings_come_to_themselves _ _ _ _ rfl _ _ _ hwritten hinput houtput
  obtain ⟨bytes, hencode, hread⟩ := hfile none (by decide)
  obtain ⟨f, hf, -, hresolve⟩ := hread bareHost "/c.json" ⟨[(["c.json"], .file bytes 0o644)]⟩
    rfl (by decide)
  exact ⟨hwritten, hdocument {} "/" none true, bytes, hencode, f, hf, hresolve {} "/" none true⟩

end FixedPoint

end Settings

end LocaleKeys
