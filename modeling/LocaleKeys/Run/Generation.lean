import LocaleKeys.Artifact.Rendering
import LocaleKeys.Document.Loading
import LocaleKeys.Run.Formatter
import LocaleKeys.Run.Result

/-!
# Runs

A run checks its directories, loads the document, renders the artifacts, and then either writes and
formats them or compares them with the committed files. Nothing is written before all artifacts are
rendered. A problem of any stage becomes a failed result, and so does a refusal of the file store.
-/

namespace LocaleKeys

/-- What is found before a run: the names of the artifacts it will make, and the paths of those that
are there. -/
structure Preparation where
  expected : List Text
  existing : List Text
deriving DecidableEq, Repr

structure Generated where
  inputFile : Text
  keyCount : Nat
  artifacts : List Artifact
deriving DecidableEq, Repr

namespace Run

def prepare (host : Host) (s : Settings) : Action Preparation := do
  if !(← Action.inspect fun store => store.isDirectory host.here s.inputPath) then
    throw (.problem (.inputAbsent s.inputPath))
  if !(← Action.inspect fun store => store.isDirectory host.here s.outputPath) then
    throw (.problem (.outputAbsent s.outputPath))
  let expected := OutputMode.expectedNames s.outputMode
  let existing ← Action.inspect fun store => store.present host.here s.outputPath expected
  if !existing.isEmpty then
    Action.record .debug Source.preparation
      ("Artifacts already present: " ++ Text.quotedList existing)
  Action.record .debug Source.preparation "Pipeline environment setup complete."
  return ⟨expected, existing⟩

def generate (host : Host) (s : Settings) : Action Generated := do
  let (inputFile, tree) ← Document.load host s.inputPath s.excludeKey
  let paths := tree.paths []
  if paths.isEmpty then
    Action.record .warning Source.run
      "Translation document has no leaf keys; emitting an empty key union."
  else
    Action.record .info Source.run
      ("Discovered " ++ Text.ofNat paths.length ++ " translation keys.")
  let artifacts ← Action.ofProblem (Rendering.ofTree s.outputMode s.disableEslintQuotes tree)
  return ⟨inputFile, paths.length, artifacts⟩

def formatWith (host : Host) (s : Settings) (paths : List Text) : Action Bool :=
  if s.format then Formatter.format host (some s.formatter) paths else return false

def verify (host : Host) (s : Settings) (p : Preparation) (g : Generated) : Action RunResult := do
  let format (paths : List Text) : Action Unit := do
    let _ ← formatWith host s paths
  let v ← Verification.verify host s.outputPath format g.artifacts
  if v.ok then
    Action.record .info Source.run "Verification completed: artifacts match."
    return { RunResult.succeeded s g.inputFile g.keyCount v.checked s.format with
      verification := some v
      summary := [("expected_files", .strings p.expected)] }
  else
    Action.record .error Source.run v.message
    return { RunResult.failed s g.inputFile .driftMismatch v.message with verification := some v }

/-- Writes the rendered artifacts and formats them. Files are compared before they are written only
if they are not formatted afterwards. -/
def emit (host : Host) (s : Settings) (p : Preparation) (g : Generated) : Action RunResult := do
  let written ← Artifact.writeAll host s.outputPath (!s.format) g.artifacts
  let formatted ← formatWith host s written
  Action.record .info Source.run "Pipeline completed successfully."
  return { RunResult.succeeded s g.inputFile g.keyCount written formatted with
    summary := [("expected_files", .strings p.expected),
      ("existing_files_before_run", .strings p.existing)] }

/-- The failed result that a failure becomes, if it does. -/
def resultOf? (s : Settings) (inputFile : Text) : Failure → Option RunResult
  | .problem p => some (.failed s inputFile p.kind p.message)
  | .system e =>
      some (.failed s inputFile .generation
        ("Failed to write artifacts to '" ++ s.outputPath ++ "': " ++ e.message))
  | _ => none

/-- The result of a stage after which `inputFile` is known. -/
def conclude (s : Settings) (inputFile : Text) (f : Failure) : Action RunResult :=
  match resultOf? s inputFile f with
  | some r => do
      Action.record .error Source.run r.error
      return r
  | none => throw f

end Run

def run (host : Host) (s : Settings) : Action RunResult := do
  Action.record .info Source.run "Pipeline execution started."
  let rendered ← Action.capture do
    let p ← Run.prepare host s
    let g ← Run.generate host s
    return (p, g)
  match rendered with
  | .error f => Run.conclude s [] f
  | .ok (p, g) =>
      match ← Action.capture (if s.noEmit then Run.verify host s p g else Run.emit host s p g) with
      | .ok r => return r
      | .error f => Run.conclude s g.inputFile f

end LocaleKeys
