import LocaleKeys.Path.Basic
import LocaleKeys.Store.Basic
import LocaleKeys.Store.Fault

/-!
# Looking things up in the store

A path is followed name by name; everything but the last name has to be a directory, and `..` leads
to the directory above. A path that ends in a slash has to name a directory. Relative paths start at
the current directory, which is given as an absolute path.

What is here is what stands in the store. Modes are handed on but never asked: a directory may
always be searched. Whether directories may be listed, and which files may be read or replaced, is
for the host to say.
-/

namespace LocaleKeys

namespace Store

def nameLimit : Nat := 255

def pathLimit : Nat := 4095

def walk (s : Store) : Location → List Text → Except Refusal Location
  | here, [] => .ok here
  | here, name :: names =>
      match s.get? here with
      | none => .error .noEntry
      | some (.file _ _) => .error .notDirectory
      | some (.directory _) =>
          if name.isEmpty || name = Path.dot then walk s here names
          else if name = Path.dotDot then walk s here.dropLast names
          else if nameLimit < Name.byteLength name then .error .nameTooLong
          else walk s (here ++ [name]) names

def origin (here path : Text) : Location :=
  if Path.isAbsolute path then [] else Path.segments here

/-- Refuses a path that is no name, before any file is looked at. -/
def checkPath (path : Text) : Except StoreFault Unit := (Name.check path).mapError StoreFault.name

/-- The location that a path leads to; there need not be an entry. -/
def locate (s : Store) (here path : Text) : Except StoreFault Location := do
  checkPath path
  let refuse (r : Refusal) : Except StoreFault Location := .error (.system (.about r path))
  if path.isEmpty then refuse .noEntry
  else if pathLimit < Name.byteLength path then refuse .nameTooLong
  else
    match s.walk (origin here path) (Text.split Path.slash path) with
    | .ok l => .ok l
    | .error r => refuse r

def entry (s : Store) (here path : Text) : Except StoreFault (Location × Entry) := do
  let l ← s.locate here path
  match s.get? l with
  | some e => .ok (l, e)
  | none => .error (.system (.about .noEntry path))

def isDirectory (s : Store) (here path : Text) : Bool :=
  match s.entry here path with
  | .ok (_, .directory _) => true
  | _ => false

def isFile (s : Store) (here path : Text) : Bool :=
  match s.entry here path with
  | .ok (_, .file _ _) => true
  | _ => false

def isPresent (s : Store) (here path : Text) : Bool :=
  match s.entry here path with
  | .ok _ => true
  | .error _ => false

def names (s : Store) (here path : Text) : Except StoreFault (List Text) := do
  match ← s.entry here path with
  | (l, .directory _) => .ok (s.children l)
  | (_, .file _ _) => .error (.system (.about .notDirectory path))

def content (s : Store) (here path : Text) : Except StoreFault Bytes := do
  match ← s.entry here path with
  | (_, .file bytes _) => .ok bytes
  | (_, .directory _) => .error (.system (.about .isDirectory path))

/-- The content of a file, or nothing if the path does not lead to a file. -/
def content? (s : Store) (here path : Text) : Option Bytes :=
  match s.entry here path with
  | .ok (_, .file bytes _) => some bytes
  | _ => none

/-- The files directly in a directory whose names end in `suffix`, as absolute paths in the order of
their names. -/
def filesWithSuffix (s : Store) (here directory suffix : Text) : Except StoreFault (List Text) := do
  let names := (← s.names here directory).mergeSort Text.le
  let candidates := names.filter suffix.isSuffixOf
  return (candidates.map (Path.join directory)).filter (s.isFile here) |>.map (Path.absolute here)

def present (s : Store) (here directory : Text) (names : List Text) : List Text :=
  (names.map (Path.join directory)).filter (s.isPresent here)

end Store

end LocaleKeys
