import LocaleKeys.Config.Option
import LocaleKeys.Log.Source
import LocaleKeys.Run.Action

/-!
# The external formatter

A formatter changes generated files in place. It is called once with all the files, and its style
comes from its arguments alone. Formatting never fails a run: a formatter that is absent, does not
start or reports an error only leaves a record. An interruption by the user is passed on, and so is
output that is no text: what a formatter prints is decoded as a whole when it ends.
-/

namespace LocaleKeys

def ToolOutcome.exited (exit : Int) (output errors : Bytes) : ToolOutcome :=
  match Utf8.decode output, Utf8.decode errors with
  | .error f, _ => .undecoded f
  | .ok _, .error f => .undecoded f
  | .ok o, .ok e =>
      .finished exit (Text.ofChars (Text.universalLines o)) (Text.ofChars (Text.universalLines e))

namespace Formatter

def options : List Text :=
  ["--write", "--no-config", "--no-editorconfig", "--ignore-path", "/dev/null", "--print-width",
    "100", "--single-quote", "--trailing-comma", "all", "--tab-width", "2"]

def command (executable : Text) (paths : List Text) : List Text := executable :: (options ++ paths)

/-- The installed formatter with a name, or the default one if the name is empty or not given. -/
def find (host : Host) (executable : Option Text) : Except Problem Tool :=
  let name := match executable with
    | none | some [] => OptionName.defaultFormatter
    | some n => n
  match host.tools.lookup name with
  | some tool => if tool.path.isEmpty then .error (.formatterAbsent name) else .ok tool
  | none => .error (.formatterAbsent name)

def call (host : Host) (tool : Tool) (arguments : List Text) : Action ToolOutcome := do
  let w ← get
  let (outcome, store) := tool.run host.here arguments w.store
  set { w with store, calls := w.calls ++ [arguments] }
  return outcome

/-- Formats files in place, and says whether that was done. -/
def format (host : Host) (executable : Option Text) (paths : List Text) : Action Bool := do
  if paths.isEmpty then return false
  match find host executable with
  | .error p =>
      Action.record .debug Source.formatting (p.message ++ " Skipping formatting.")
      return false
  | .ok tool =>
      let arguments := command tool.path paths
      Action.record .debug Source.formatting ("Running formatter: " ++ Text.join " " arguments)
      match ← call host tool arguments with
      | .interrupted => throw .interrupted
      | .undecoded f => throw (.decoding f)
      | .notStarted e =>
          Action.record .warning Source.formatting ("Formatter could not be started: " ++ e.message)
          return false
      | .finished exit output errors =>
          if exit ≠ 0 then
            let detail := Text.trim (if errors.isEmpty then output else errors)
            Action.record .warning Source.formatting
              ("Formatter exited with " ++ Text.ofInt exit ++ ": " ++ detail)
            return false
          else
            Action.record .info Source.formatting
              ("Formatted " ++ Text.ofNat paths.length ++ " file(s).")
            return true

end Formatter

namespace Tool

def scriptSuffix : Text := ".ts"

def appendTo (here : Text) (mask : Mode) (addition : Bytes) (path : Text) (s : Store) :
    Except StoreFault Store :=
  match s.entry here path with
  | .ok (l, .file content mode) => .ok (s.set l (.file (content ++ addition) mode))
  | .ok (_, .directory _) => .error (.system (.about .isDirectory path))
  | .error _ =>
      match s.locate here path with
      | .ok l => .ok (s.set l (.file addition (newFileMode mask)))
      | .error f => .error f

def appendToAll (here : Text) (mask : Mode) (addition : Bytes) :
    List Text → Store → Except StoreFault Unit × Store
  | [], s => (.ok (), s)
  | path :: paths, s =>
      match appendTo here mask addition path s with
      | .ok s => appendToAll here mask addition paths s
      | .error f => (.error f, s)

/-- A formatter that appends a text to every script among its arguments, and then ends as given. -/
def appending (path addition : Text) (mask : Mode) (outcome : ToolOutcome) : Tool where
  path
  run here arguments s :=
    let addition := (Utf8.encode addition).toOption.getD []
    match appendToAll here mask addition (arguments.filter scriptSuffix.isSuffixOf) s with
    | (.error (.system e), s) => (.notStarted e, s)
    | (_, s) => (outcome, s)

end Tool

end LocaleKeys
