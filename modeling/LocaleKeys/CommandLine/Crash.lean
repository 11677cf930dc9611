import LocaleKeys.CommandLine.Session

/-!
# Crashes

A failure that nothing handles ends the program with exit code 1. It is recorded as critical, and
told on the console with the same mark as any other failure, followed by its description.
-/

namespace LocaleKeys

/-- A failure that nothing handles: the name of its kind, its message, and what its description says
behind its name, which is usually the message. -/
structure Crash where
  kind : Text
  message : Text
  detail : Text := message
deriving DecidableEq, Repr

namespace Crash

/-- What a failure is called when nothing handles it. -/
def kindOf : Failure → Text
  | .problem p => p.kind.name
  | .system _ => "refused by the file system"
  | .encoding _ => "text that cannot be written"
  | .decoding _ => "bytes that cannot be read"
  | .value _ => "unusable value"
  | .type _ => "value of a wrong type"
  | .placeholder _ => "placeholder that does not fit"
  | .range _ => "number out of range"
  | .library kind _ => kind
  | .interrupted => "interrupted"

def ofFailure (f : Failure) : Crash := { kind := kindOf f, message := f.message }

def description (x : Crash) : Text :=
  (if x.detail.isEmpty then x.kind else x.kind ++ ": " ++ x.detail) ++ "\n"

def record (x : Crash) : Record :=
  ⟨.critical, "rntranslationgen.supervisor",
    "FATAL EXCEPTION DETECTED: " ++ x.message ++ "\n" ++ x.description⟩

def ending (c : Catalogue) (x : Crash) : Except Failure Ending := do
  let message ← c.message "cli.errors.unexpected" [] [("error", .str x.message)]
  let text ← Session.failureText c message
  let errors := Session.printLine text ++ Session.printLine x.description
  return { exit := 1, printed := { errors } }

end Crash

end LocaleKeys
