import LocaleKeys.KeyTree.Names
import LocaleKeys.Log.Source
import LocaleKeys.Run.Action

/-!
# Loading the locale document

Of the locale documents in a directory the one with the least name defines the keys. It has to
be a JSON object; `exclude_key` names a member of it that takes its place. Every key below has to be
usable in a dotted path.
-/

namespace LocaleKeys

namespace Document

def suffix : Text := ".json"

/-- The files directly in a directory whose names end in `suffix`, unless listing is refused. -/
def files (host : Host) (directory suffix : Text) (s : Store) : Except StoreFault (List Text) :=
  if host.listingDenied then .error (.system (.about .accessDenied directory))
  else s.filesWithSuffix host.here directory suffix

def candidates (host : Host) (directory : Text) (s : Store) : Except Failure (List Text) :=
  if !s.isDirectory host.here directory then .error (.problem (.inputAbsent directory))
  else
    match files host directory suffix s with
    | .ok paths => .ok paths
    | .error (.system e) => .error (.problem (.inputUnlisted directory e))
    | .error f => .error (.ofStore f)

def discover (host : Host) (directory : Text) : Action Text := do
  match ← Action.ofStore (candidates host directory) with
  | [] => throw (.problem (.noDocument directory))
  | selected :: others =>
      if !others.isEmpty then
        Action.record .debug Source.document
          (Text.ofNat (others.length + 1) ++ " translation files found; using " ++
            Path.base selected ++ " as key schema.")
      Action.record .info Source.document ("Reading translation keys from: " ++ selected)
      return selected

def parse (path : Text) (bytes : Bytes) : Except Failure (KeyTree Json) :=
  match Utf8.decode bytes with
  | .error f => .error (.problem (.documentUndecoded path f))
  | .ok cs =>
      match Json.read (Text.universalLines cs) with
      | .error (.syntaxError m place) => .error (.problem (.documentSyntax path m place))
      | .error (.tooManyDigits n) => .error (.value (.integerDigits n))
      | .ok (.obj members) => .ok (KeyTree.ofMembers members)
      | .ok v => .error (.problem (.documentRoot path v.typeName))

def read (host : Host) (path : Text) (s : Store) : Except Failure (KeyTree Json) :=
  match host.content path s with
  | .ok bytes => parse path bytes
  | .error (.system e) => .error (.problem (.documentUnread path e))
  | .error f => .error (.ofStore f)

/-- The tree under `key` at the top of a tree; the tree itself if there is no such key or none is
given. -/
def unwrapped (key : Option Text) (t : KeyTree Json) : Except Problem (KeyTree Json) :=
  match key with
  | none | some [] => .ok t
  | some k =>
      match t.find k with
      | .absent => .ok t
      | .node below => .ok below
      | .leaf v => .error (.unwrappedType k v.typeName)

def unwrapMessage? (key : Option Text) (t : KeyTree Json) : Option Text :=
  match key with
  | none | some [] => none
  | some k =>
      match t.find k with
      | .absent => some ("Exclude key '" ++ k ++ "' not present at root; tree used unchanged.")
      | .node _ => some ("Unwrapped root key '" ++ k ++ "'.")
      | .leaf _ => none

def unwrap (key : Option Text) (t : KeyTree Json) : Action (KeyTree Json) := do
  let below ← Action.ofProblem (unwrapped key t)
  match unwrapMessage? key t with
  | some message => Action.record .debug Source.document message
  | none => pure ()
  return below

def checkNames {α : Type} (t : KeyTree α) : Except Problem Unit :=
  match t.misnamed [] with
  | [] => .ok ()
  | locations => .error (.misnamedKeys locations)

def load (host : Host) (directory : Text) (excludeKey : Option Text) :
    Action (Text × KeyTree Json) := do
  let path ← discover host directory
  let tree ← Action.ofStore (read host path)
  let tree ← unwrap excludeKey tree
  Action.ofProblem (checkNames tree)
  return (path, tree)

end Document

end LocaleKeys
