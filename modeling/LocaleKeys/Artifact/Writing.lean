import LocaleKeys.Artifact.Basic
import LocaleKeys.Log.Source
import LocaleKeys.Run.Action

/-!
# Writing artifacts

Artifacts are written one after the other, each of them at once (`Store.replace`), so that a failure
leaves the ones before it written and the ones from it on as they were. With `skipUnchanged` a file
that holds the right bytes already is not touched; a file that cannot be read is a failure then.
-/

namespace LocaleKeys

namespace Artifact

def put (host : Host) (path : Text) (data : Bytes) : Action Unit :=
  Action.change (host.replace path data)

/-- Writes bytes to a path, unless they are what is held there. -/
def writeOver (host : Host) (path : Text) (held : Option Bytes) (data : Bytes) : Action Unit := do
  if held = some data then
    Action.record .debug Source.writing ("Unchanged: " ++ path)
  else
    put host path data
    Action.record .info Source.writing ("Wrote " ++ path)

def write (host : Host) (directory : Text) (skipUnchanged : Bool) (a : Artifact) : Action Text := do
  let path := Path.join directory a.name
  let data ← Action.ofStore fun _ => a.encode.mapError Failure.encoding
  let held ← if skipUnchanged then Action.read (host.content? path) else pure none
  writeOver host path held data
  return Path.absolute host.here path

def writeAll (host : Host) (directory : Text) (skipUnchanged : Bool) :
    List Artifact → Action (List Text)
  | [] => return []
  | a :: as => do
      let path ← write host directory skipUnchanged a
      let paths ← writeAll host directory skipUnchanged as
      return path :: paths

end Artifact

end LocaleKeys
