import LocaleKeys.Artifact.Verification
import LocaleKeys.Config.Settings

/-!
# Results of a run

A run ends with a result also when it fails, unless the failure is none of its own. The result as a
document has one member for each of its parts.
-/

namespace LocaleKeys

structure RunResult where
  ok : Bool
  error : Text := []
  inputFile : Text
  outputPath : Text
  outputMode : Text
  noEmit : Bool
  keyCount : Int := 0
  artifacts : List Text := []
  formatted : Bool := false
  verification : Option Verification := none
  summary : List (Text × Json) := []
  errorKind : Text := []

namespace RunResult

def toJson (r : RunResult) : Json :=
  .obj [("ok", .bool r.ok), ("error", .str r.error), ("input_file", .str r.inputFile),
    ("output_path", .str r.outputPath), ("output_mode", .str r.outputMode),
    ("no_emit", .bool r.noEmit), ("key_count", .int r.keyCount),
    ("artifacts", .strings r.artifacts), ("formatted", .bool r.formatted),
    ("verification", match r.verification with
      | none => .null
      | some v => v.toJson),
    ("summary", .obj r.summary), ("error_kind", .str r.errorKind)]

def driftDetected (r : RunResult) : Bool :=
  match r.verification with
  | none => false
  | some v => !v.ok

/-- The exit code for a result: 3 for committed files that differ, 1 for any other failure. -/
def exitCode (r : RunResult) : Nat :=
  if r.ok then 0
  else if r.driftDetected then 3
  else 1

def failed (s : Settings) (inputFile : Text) (kind : ProblemKind) (error : Text) : RunResult :=
  { ok := false, error, inputFile, outputPath := s.outputPath, outputMode := s.outputMode
    noEmit := s.noEmit, errorKind := kind.name }

def succeeded (s : Settings) (inputFile : Text) (keyCount : Nat) (artifacts : List Text)
    (formatted : Bool) : RunResult :=
  { ok := true, inputFile, outputPath := s.outputPath, outputMode := s.outputMode
    noEmit := s.noEmit, keyCount, artifacts, formatted }

end RunResult

end LocaleKeys
