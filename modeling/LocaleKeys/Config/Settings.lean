import LocaleKeys.Config.Coercion
import LocaleKeys.Config.Option
import LocaleKeys.Path.Expansion

/-!
# Settings

The settings of a run are what its options come to: every option has one value of the right type,
the two directories are absolute paths, and the output mode is one of the known ones.
`Settings.resolve` makes them from a layer of options, and `Settings.ofValue` from a value of any
kind.
-/

namespace LocaleKeys

structure Settings where
  inputPath : Text
  outputPath : Text
  excludeKey : Option Text := none
  outputMode : Text := OptionName.defaultOutputMode
  disableEslintQuotes : Bool := false
  format : Bool := false
  noEmit : Bool := false
  formatter : Text := OptionName.defaultFormatter
deriving DecidableEq, Repr

structure Chosen (α : Type) where
  value : α
  warnings : List Text
deriving DecidableEq, Repr

namespace Settings

def toMembers (s : Settings) : List (Text × Json) :=
  [(OptionName.inputPath.text, .str s.inputPath), (OptionName.outputPath.text, .str s.outputPath),
    (OptionName.excludeKey.text, match s.excludeKey with
      | none => .null
      | some k => .str k),
    (OptionName.outputMode.text, .str s.outputMode),
    (OptionName.disableEslintQuotes.text, .bool s.disableEslintQuotes),
    (OptionName.format.text, .bool s.format), (OptionName.noEmit.text, .bool s.noEmit),
    (OptionName.formatter.text, .str s.formatter)]

/-- The value of an option: the one that a layer gives it, or the default. -/
def valueOf (options : Options) (name : OptionName) : Value :=
  match options.find? name with
  | none | some .null => name.default
  | some v => v

def textFallback (name : OptionName) : Option Text :=
  match name.default with
  | .str t => some t
  | _ => none

def textOf (strict : Bool) (options : Options) (name : OptionName) :
    Except Failure (Chosen (Option Text)) :=
  (Coerced.asText strict name.text (valueOf options name)).map fun c =>
    ⟨c.value?.or (textFallback name), c.warnings⟩

def flagOf (strict : Bool) (options : Options) (name : OptionName) :
    Except Failure (Chosen Bool) :=
  (Coerced.asFlag strict name.text (valueOf options name)).map fun c =>
    ⟨c.value?.getD false, c.warnings⟩

/-- The settings that options come to, with warnings. Relative paths are seen from `root`; without
one they are seen from the current directory `here`. -/
def resolve (env : Environment) (here : Text) (root : Option Text) (strict : Bool)
    (options : Options) : Except Failure (Settings × List Text) := do
  let root := match root with
    | none | some [] => here
    | some r => r
  let text (name : OptionName) := textOf strict options name
  let flag (name : OptionName) := flagOf strict options name
  let input ← text .inputPath
  let output ← text .outputPath
  let excludeKey ← text .excludeKey
  let mode ← text .outputMode
  let formatter ← text .formatter
  let quotes ← flag .disableEslintQuotes
  let format ← flag .format
  let noEmit ← flag .noEmit
  let path (p : Option Text) := (Path.resolve env here p root).mapError Failure.ofName
  let some inputPath ← path input.value | throw (.problem .inputNotGiven)
  let some outputPath ← path output.value | throw (.problem .outputNotGiven)
  let modeText := mode.value.getD []
  if !outputModeNames.contains modeText.lower then throw (.problem (.invalidMode modeText))
  let settings : Settings :=
    { inputPath, outputPath
      excludeKey := excludeKey.value
      outputMode := modeText.lower
      disableEslintQuotes := quotes.value
      format := format.value
      noEmit := noEmit.value
      formatter := formatter.value.getD OptionName.defaultFormatter }
  return (settings, input.warnings ++ output.warnings ++ excludeKey.warnings ++ mode.warnings ++
    formatter.warnings ++ quotes.warnings ++ format.warnings ++ noEmit.warnings)

/-- The options that the entries of a mapping name; other entries count for nothing. -/
def namedOptions (entries : List (Value × Value)) : Options :=
  entries.filterMap fun (k, v) => match k with
    | .str t => (OptionName.ofText? t).map (·, v)
    | _ => none

/-- The settings that a value of any kind comes to. Nothing is a mapping without entries; anything
else that is no mapping is one too, with a warning. -/
def ofValue (env : Environment) (here : Text) (root : Option Text) (strict : Bool) (v : Value) :
    Except Failure (Settings × List Text) :=
  match v with
  | .dict entries => resolve env here root strict (namedOptions entries)
  | .null => resolve env here root strict []
  | v => do
      let fault := TypeFault.config v.typeName
      if strict then throw (.type fault)
      let (settings, warnings) ← resolve env here root strict []
      return (settings, (fault.message ++ " Using defaults.") :: warnings)

end Settings

end LocaleKeys
