import LocaleKeys.Config.Option
import LocaleKeys.Log.Source
import LocaleKeys.Run.Action

/-!
# Option files

An option file is a mapping from spellings of options to scalars, either at the top or under the
name of the program. Entries with an unknown spelling, and lists and mappings, are left out with a
warning. Files whose name ends in `.yml` or `.yaml` are read as YAML, by a library that is no part
of the program, all others as JSON.
-/

namespace LocaleKeys

/-- The options that a file gives, in the order in which they were first named, and the warnings
about the rest. -/
structure FileOptions where
  options : Options := []
  warnings : List Text := []

namespace FileOptions

def fileNames : List Text :=
  ["rn-translation-gen.yml", "rn-translation-gen.yaml", "rn-translation-gen.json"]

/-- The key of the mapping that takes the place of the whole file. -/
def sectionName : Text := "rn-translation-gen"

def addEntry (path : Text) (f : FileOptions) (key value : Value) : Except Failure FileOptions := do
  let warn (message : Text) : FileOptions := { f with warnings := f.warnings ++ [message] }
  let spelling ← key.message.mapError Failure.value
  match OptionName.ofSpelling? spelling with
  | none => return warn ("Unknown option '" ++ spelling ++ "' in '" ++ path ++ "' ignored.")
  | some name =>
      match value with
      | .list _ | .dict _ =>
          return warn ("Option '" ++ spelling ++ "' in '" ++ path ++ "' must be a scalar; ignored.")
      | v => return { f with options := f.options.set name v }

/-- The entries that count: those under the name of the program if they are a mapping, else all. -/
def effective (entries : List (Value × Value)) : List (Value × Value) :=
  match entries.find? fun e => Value.sameKey e.1 (.str sectionName) with
  | some (_, .dict inner) => inner
  | _ => entries

def ofEntries (path : Text) (entries : List (Value × Value)) : Except Failure FileOptions :=
  (effective entries).foldlM (fun f e => addEntry path f e.1 e.2) {}

def isYaml (path : Text) : Bool :=
  (Text.ofString ".yml").isSuffixOf path || (Text.ofString ".yaml").isSuffixOf path

/-- The value of a YAML document. Of what the library raises only a refusal of the system and the
fault that it has for documents are turned into a problem. -/
def readYaml (host : Host) (path : Text) (bytes : Bytes) : Except Failure Value :=
  match host.yaml bytes with
  | .ok v => .ok v
  | .error (.refused e) => .error (.problem (.configUnread path e))
  | .error (.invalid message) => .error (.problem (.configSyntax path (.yaml message)))
  | .error (.raised kind message) => .error (.library kind message)

def readJson (path : Text) (bytes : Bytes) : Except Failure Value :=
  match Utf8.decode bytes with
  | .error f => .error (.decoding f)
  | .ok cs =>
      match Json.read (Text.universalLines cs) with
      | .ok v => .ok (.ofJson v)
      | .error (.syntaxError m place) => .error (.problem (.configSyntax path (.json m place)))
      | .error (.tooManyDigits n) => .error (.value (.integerDigits n))

def parse (host : Host) (path : Text) (bytes : Bytes) : Except Failure FileOptions := do
  match ← if isYaml path then readYaml host path bytes else readJson path bytes with
  | .null => return {}
  | .dict entries => ofEntries path entries
  | v => throw (.problem (.configRoot path v.typeName))

def read (host : Host) (path : Text) (s : Store) : Except Failure FileOptions :=
  match host.content path s with
  | .ok bytes => parse host path bytes
  | .error (.system e) => .error (.problem (.configUnread path e))
  | .error f => .error (.ofStore f)

def find (host : Host) (root : Text) : Action (Option Text) := do
  let candidates := fileNames.map (Path.join root)
  match ← Action.inspect fun s => candidates.find? (s.isFile host.here) with
  | none => return none
  | some path =>
      Action.record .debug Source.optionFile ("Config file discovered: " ++ path)
      return some (Path.absolute host.here path)

def load (host : Host) (path : Text) : Action FileOptions := do
  let f ← Action.ofStore (read host path)
  Action.record .info Source.optionFile ("Loaded configuration from " ++ path)
  return f

/-- The options of a project, with the path of the file they come from. A file that is named has to
exist. -/
def loadProject (host : Host) (root : Text) (named : Option Text) :
    Action (FileOptions × Option Text) := do
  match named with
  | none | some [] =>
      match ← find host root with
      | some path => return (← load host path, some path)
      | none =>
          Action.record .debug Source.optionFile ("No config file found in " ++ root)
          return ({}, none)
  | some name =>
      let path := Path.join root name
      if ← Action.inspect fun s => s.isFile host.here path then
        return (← load host path, some path)
      else throw (.problem (.configAbsent path))

end FileOptions

end LocaleKeys
