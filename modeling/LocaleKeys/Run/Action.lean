import LocaleKeys.Failure
import LocaleKeys.Log.Record
import LocaleKeys.Path.Expansion
import LocaleKeys.Store.Replacement

/-!
# Actions

An action reads and changes a workspace: the files, the records made so far, and the formatter calls
made so far. It ends with a result or with a failure, and the workspace is there in both cases. The
host says what an action cannot change: the current directory, the variables, the users, the mask
for new files, the installed formatters, the library that reads YAML, and what is refused.
-/

namespace LocaleKeys

/-- How a formatter ends. One whose output is no text ends all the same, but nobody can say how. -/
inductive ToolOutcome where
  | interrupted
  | notStarted (e : SystemError)
  | undecoded (f : Utf8.DecodeFault)
  | finished (exit : Int) (output errors : Text)

/-- An installed formatter: its path, and what it does with the files when it is called with given
arguments in the directory `here`. -/
structure Tool where
  path : Text
  run : (here : Text) → (arguments : List Text) → Store → ToolOutcome × Store

structure Host where
  here : Text
  environment : Environment
  tools : List (Text × Tool)
  /-- The value of a YAML document of given bytes. -/
  yaml : Bytes → Except YamlFault Value
  umask : Mode
  /-- Whether listing a directory is refused. -/
  listingDenied : Bool := false
  /-- What opening the file at a path for reading is refused with. -/
  readRefusal : Text → Option Refusal := fun _ => none
  /-- What is refused while the file at a path is replaced. -/
  refusals : Text → Store.Refusals := fun _ => .none

namespace Host

def content (host : Host) (path : Text) (s : Store) : Except StoreFault Bytes := do
  let bytes ← s.content host.here path
  match host.readRefusal path with
  | some r => .error (.system (.about r path))
  | none => .ok bytes

/-- The content of a file that may be refused, or nothing if the path does not lead to a file. -/
def content? (host : Host) (path : Text) (s : Store) : Except StoreFault (Option Bytes) :=
  match s.content? host.here path, host.readRefusal path with
  | none, _ => .ok none
  | some _, some r => .error (.system (.about r path))
  | some bytes, none => .ok (some bytes)

/-- Replaces the file at a path under the mask of the host, which may refuse it. -/
def replace (host : Host) (path : Text) (data : Bytes) (s : Store) :
    Except StoreFault Unit × Store :=
  s.replace (host.refusals path) host.umask host.here path data

end Host

structure Workspace where
  store : Store
  /-- The records so far, the oldest first. -/
  journal : List Record := []
  /-- The formatter calls so far, the oldest first. -/
  calls : List (List Text) := []

abbrev Action (α : Type) := ExceptT Failure (StateM Workspace) α

namespace Action

def runOn {α : Type} (a : Action α) (w : Workspace) : Except Failure α × Workspace := a w

def record (severity : Severity) (source message : Text) : Action Unit :=
  modify fun w => { w with journal := w.journal ++ [⟨severity, source, message⟩] }

def inspect {α : Type} (f : Store → α) : Action α := return f (← get).store

def ofStore {α : Type} (f : Store → Except Failure α) : Action α :=
  ExceptT.mk (return f (← get).store)

def read {α : Type} (f : Store → Except StoreFault α) : Action α :=
  ofStore fun s => (f s).mapError Failure.ofStore

def ofProblem {α : Type} : Except Problem α → Action α
  | .ok a => return a
  | .error p => throw (.problem p)

/-- An operation of the store that may fail and gives the store back in both cases. -/
def change {α : Type} (f : Store → Except StoreFault α × Store) : Action α := do
  let w ← get
  match f w.store with
  | (.ok a, s) => set { w with store := s }; return a
  | (.error e, s) => set { w with store := s }; throw (.ofStore e)

/-- An action together with its failure, so that it does not end the action around it. -/
def capture {α : Type} (a : Action α) : Action (Except Failure α) :=
  ExceptT.mk (do return .ok (← a.run))

end Action

end LocaleKeys
