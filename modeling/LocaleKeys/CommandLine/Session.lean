import LocaleKeys.CommandLine.Help
import LocaleKeys.Config.File
import LocaleKeys.Json.Printer
import LocaleKeys.Log.State
import LocaleKeys.Run.Generation

/-!
# A command

A command reads its words, finds the options of the project, and runs. What it prints for people
goes to its output if the run succeeds and to its errors if it fails; with `--json` the whole result
goes to the output. Records are collected during the run and written by the listener of the log when
the command ends.
-/

namespace LocaleKeys

structure Printed where
  output : Text := []
  errors : Text := []
deriving DecidableEq, Repr

structure Ending where
  exit : Nat
  printed : Printed := {}
deriving DecidableEq, Repr

/-- How a command ends: with an exit code, or with a failure that nothing handles. -/
structure Report where
  ending : Except Failure Nat
  printed : Printed := {}
  /-- What the log writes to the console. -/
  log : Text := []

namespace Session

def exitInterrupted : Nat := 130

def printLine (t : Text) : Text := t ++ "\n"

def failureText (c : Catalogue) (message : Text) : Except Failure Text :=
  c.message "cli.errors.prefix" [] [("message", .str message)]

def summary (c : Catalogue) (r : RunResult) : Except Failure Printed := do
  if !r.ok then
    return { errors := printLine (← failureText c r.error) }
  match r.verification with
  | some v =>
      let verified ← c.message "cli.status.verified" [] [("message", .str v.message)]
      return { output := printLine verified }
  | none =>
      let success ← c.message "cli.status.success" [] [("path", .str r.outputPath)]
      let source ← c.message "cli.status.source" [] [("path", .str r.inputFile)]
      let keys ← c.message "cli.status.keys" [] [("count", .int r.keyCount)]
      let artifacts := r.artifacts.flatMap fun path => printLine ("  - " ++ path)
      return { output := printLine success ++ printLine source ++ printLine keys ++ artifacts }

def projectRoot (host : Host) (a : Arguments) : Text :=
  Path.absolute host.here (match a.projectRoot with
    | none | some [] => host.here
    | some r => r)

def settings (host : Host) (root : Text) (a : Arguments) :
    Action (Settings × Option Text × List Text) := do
  let (file, path) ← FileOptions.loadProject host root a.configPath
  let options := Layer.overlay file.options a.overrides
  let (s, warnings) ← Action.ofStore fun _ =>
    Settings.resolve host.environment host.here (some root) false options
  return (s, path, file.warnings ++ warnings)

def dump (s : Settings) (path : Option Text) : Json :=
  let file : Text × Json := ("config_file", match path with
    | none => .null
    | some p => .str p)
  .obj (s.toMembers ++ [file])

def runWith (host : Host) (c : Catalogue) (a : Arguments) (s : Settings) : Action Ending := do
  match ← Action.capture (run host s) with
  | .error .interrupted =>
      let message := c.text "cli.status.interrupted" []
      Action.record .warning Source.commandLine message
      return { exit := exitInterrupted, printed := { errors := printLine message } }
  | .error f => throw f
  | .ok r =>
      if a.json then
        return { exit := r.exitCode, printed := { output := printLine r.toJson.print } }
      else return { exit := r.exitCode, printed := ← Action.ofStore fun _ => summary c r }

def perform (host : Host) (c : Catalogue) (a : Arguments) : Action Ending := do
  let root := projectRoot host a
  Action.record .debug Source.commandLine ("Project root: " ++ root)
  match ← Action.capture (settings host root a) with
  | .error (.problem p) =>
      let text ← Action.ofStore fun _ => failureText c p.message
      return { exit := 1, printed := { errors := printLine text } }
  | .error f => throw f
  | .ok (s, path, warnings) =>
      warnings.forM fun w =>
        Action.record .warning Source.commandLine ("Configuration Constraint: " ++ w)
      if a.dumpConfig then
        return { exit := 0, printed := { output := printLine (dump s path).print } }
      else runWith host c a s

def logOptions (a : Arguments) : LogOptions :=
  { level := .str (if a.debug then Severity.debug else Severity.info).name, file := a.logFile }

/-- A command with its words read, at a time that log files show. -/
def execute (host : Host) (time : Text) (c : Catalogue) (a : Arguments) (w : Workspace) :
    Report × Workspace :=
  match Logging.configure host.here host.umask time (logOptions a) false {} w.store with
  | (.error f, l, s) =>
      ({ ending := .error f, printed := { errors := l.notices } }, { w with store := s })
  | (.ok (), l, s) =>
      let before := w.journal.length
      let (ended, w) := (perform host c a).runOn { w with store := s }
      let l := (w.journal.drop before).foldl (fun l r => l.log r) l
      let (l, s) := l.shutdown host.here host.umask time w.store
      let printed := match ended with
        | .ok e => e.printed
        | .error _ => {}
      ({ ending := ended.map (·.exit)
         printed := { printed with errors := l.notices ++ printed.errors }
         log := l.console },
        { w with store := s })

def command (host : Host) (time : Text) (c : Catalogue) (words : List Text) (w : Workspace) :
    Report × Workspace :=
  let width := Help.width host.environment
  match Arguments.read words with
  | .error .help => ({ ending := .ok 0, printed := { output := Help.help c width } }, w)
  | .error (.usage f) => ({ ending := .ok 2, printed := { errors := Help.complaint width f } }, w)
  | .ok a => execute host time c a w

end Session

end LocaleKeys
