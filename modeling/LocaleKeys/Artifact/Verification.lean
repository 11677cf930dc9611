import LocaleKeys.Artifact.Writing
import LocaleKeys.Json.Basic

/-!
# Verifying artifacts

Verification writes fresh artifacts to a staging directory of its own, formats them there, and
compares their bytes with those of the committed files. The staging directory is gone afterwards,
whatever happens in between. Making it is never refused: what the system refuses is an artifact that
is put there.
-/

namespace LocaleKeys

/-- What comparing fresh artifacts with the committed ones gives: the names of all of them, of those
with other bytes, and of those that are not there. -/
structure Verification where
  ok : Bool
  checked : List Text := []
  mismatched : List Text := []
  missing : List Text := []
  message : Text := []
deriving DecidableEq, Repr

namespace Verification

def toJson (v : Verification) : Json :=
  .obj [("ok", .bool v.ok), ("checked", .strings v.checked), ("mismatched", .strings v.mismatched),
    ("missing", .strings v.missing), ("message", .str v.message)]

def describe (directory : Text) (mismatched missing : List Text) : Text :=
  let group (title : Text) (names : List Text) : List Text :=
    if names.isEmpty then [] else [title ++ Text.join ", " names]
  if mismatched.isEmpty && missing.isEmpty then
    "Translation artifacts in '" ++ directory ++ "' are up to date."
  else
    "Translation artifacts are out of date (" ++
      Text.join "; " (group "differs: " mismatched ++ group "missing: " missing) ++ ")."

/-- How a committed file stands to its fresh copy. -/
inductive Standing where
  | same
  | different
  | absent
deriving DecidableEq, Repr

def standing (committed fresh : Option Bytes) : Standing :=
  match committed with
  | none => .absent
  | some bytes => if some bytes = fresh then .same else .different

def ofStandings (directory : Text) (standings : List (Text × Standing)) : Verification :=
  let named (s : Standing) : List Text := (standings.filter (·.2 = s)).map (·.1)
  { ok := (named .different).isEmpty && (named .absent).isEmpty
    checked := standings.map (·.1)
    mismatched := named .different
    missing := named .absent
    message := describe directory (named .different) (named .absent) }

def stagingParent : Text := "/tmp"

/-- The path of a staging directory that is not there yet. -/
def stagingPath (here : Text) (s : Store) : Text :=
  let taken := (s.names here stagingParent).toOption.getD []
  Path.join stagingParent (Store.freshName taken ("rntranslationgen-" ++ ·))

/-- The mode of a staging directory: nobody else may read it. -/
def stagingMode : Mode := 0o700

def locationOf (path : Text) : Location := Path.segments path

def stage (host : Host) (staging : Text) : List Artifact → Action (List Text)
  | [] => return []
  | a :: as => do
      let path := Path.join staging a.name
      let data ← Action.ofStore fun _ => a.encode.mapError Failure.encoding
      Artifact.put host path data
      let paths ← stage host staging as
      return path :: paths

def tell (a : Artifact) : Standing → Action Unit
  | .same => pure ()
  | .different =>
      Action.record .debug Source.verification ("Committed artifact differs: " ++ a.name)
  | .absent =>
      Action.record .debug Source.verification ("Committed artifact missing: " ++ a.name)

/-- Compares an artifact with its committed file. The fresh copy is read only if there is one. -/
def compare (host : Host) (directory : Text) (a : Artifact) (staged : Text) :
    Action (Text × Standing) := do
  let committed ← Action.read (host.content? (Path.join directory a.name))
  let fresh ← if committed.isSome then Action.read (host.content? staged) else pure none
  tell a (standing committed fresh)
  return (a.name, standing committed fresh)

def compareAll (host : Host) (directory : Text) :
    List (Artifact × Text) → Action (List (Text × Standing))
  | [] => return []
  | (a, staged) :: rest => do
      let s ← compare host directory a staged
      let ss ← compareAll host directory rest
      return s :: ss

/-- Compares artifacts with their committed files in `directory`; `format` formats the staged files.
-/
def verify (host : Host) (directory : Text) (format : List Text → Action Unit)
    (artifacts : List Artifact) : Action Verification := do
  let staging ← Action.inspect (stagingPath host.here)
  modify fun w => { w with store := w.store.set (locationOf staging) (.directory stagingMode) }
  let outcome ← Action.capture do
    Action.record .debug Source.verification ("Staging artifacts for verification in " ++ staging)
    let staged ← stage host staging artifacts
    format staged
    compareAll host directory (artifacts.zip staged)
  modify fun w => { w with store := w.store.eraseTree (locationOf staging) }
  match outcome with
  | .ok standings => return ofStandings directory standings
  | .error f => throw f

end Verification

end LocaleKeys
