import LocaleKeys.Store.Access

/-!
# Replacing a file at once

New content is first written to a temporary file beside the target and then moved into its place.
The target has either its old content or the new one at any time, and whatever fails, the temporary
file is gone afterwards. A file that is replaced hands its mode on.

The temporary file is made, filled, given its mode and moved. Each of these effects may be refused
from outside, the filling also in its middle.
-/

namespace LocaleKeys

namespace Store

/-- The first of the names `make "00000000"`, `make "00000001"`, … that is not in `taken`. -/
def freshName (taken : List Text) (make : Text → Text) : Text :=
  go taken.length 0
where
  go : (fuel k : Nat) → Text
    | 0, k => make (Text.ofChars (Digits.padded 10 8 k))
    | fuel + 1, k =>
        let name := make (Text.ofChars (Digits.padded 10 8 k))
        if taken.contains name then go fuel (k + 1) else name

def temporaryName (name unique : Text) : Text := "." ++ name ++ "." ++ unique ++ ".tmp"

/-- Moves a file from a location to a path. The path may not end in a slash, in `.` or in `..`, and
a directory is not replaced. -/
def move (s : Store) (here : Text) (source : Location) (target : Text) : Except Refusal Store := do
  if target.isEmpty then throw .noEntry
  if pathLimit < Name.byteLength target then throw .nameTooLong
  let parts := (Text.split Path.slash target).reverse
  let endsInSlash := (parts.headD []).isEmpty
  match parts.dropWhile List.isEmpty with
  | [] => throw .busy
  | name :: above =>
      let parent ← s.walk (origin here target) (above.reverse ++ [[]])
      if name = Path.dot || name = Path.dotDot then throw .busy
      if nameLimit < Name.byteLength name then throw .nameTooLong
      if endsInSlash then throw .notDirectory
      match s.get? (parent ++ [name]), s.get? source with
      | some (.directory _), _ => throw .isDirectory
      | _, some e => return (s.erase source).set (parent ++ [name]) e
      | _, none => throw .noEntry

def temporaryDirectory (here path : Text) : Text := Path.directory (Path.absolute here path)

def temporaryFor (s : Store) (here path : Text) : Text :=
  freshName ((s.names here (temporaryDirectory here path)).toOption.getD [])
    (temporaryName (Path.base path))

/-- The mode of a temporary file before it is given that of the file it replaces. -/
def privateMode (mask : Mode) : Mode := masked mask 0o600

/-- The mode of the file that replaces the one at a path, under a mask for new files. -/
def modeUnder (s : Store) (mask : Mode) (here path : Text) : Mode :=
  match s.entry here path with
  | .ok (_, e) => e.mode
  | .error _ => newFileMode mask

/-- What is refused from outside while a file is replaced. The filling ends after some of the bytes
if it is refused. -/
structure Refusals where
  create : Option Refusal := none
  fill : Option (Nat × Refusal) := none
  setMode : Option Refusal := none
  move : Option Refusal := none
deriving DecidableEq, Repr

def Refusals.none : Refusals := {}

/-- Fills the temporary file, which has been made. What fails gives the store that is reached. -/
def fill (s : Store) (refusals : Refusals) (mask : Mode) (source : Location) (data : Bytes) :
    Except (StoreFault × Store) Store :=
  match refusals.fill with
  | some (n, r) =>
      .error (.system ⟨r.number, r.reason, none, none⟩,
        s.set source (.file (data.take n) (privateMode mask)))
  | none => .ok (s.set source (.file data (privateMode mask)))

def setMode (s : Store) (refusals : Refusals) (temporary : Text) (source : Location) (data : Bytes)
    (mode : Mode) : Except (StoreFault × Store) Store :=
  match refusals.setMode with
  | some r => .error (.system (.about r temporary), s)
  | none => .ok (s.set source (.file data mode))

def moveInto (s : Store) (refusals : Refusals) (temporary here path : Text) (source : Location) :
    Except (StoreFault × Store) Store :=
  match checkPath path, refusals.move with
  | .error f, _ => .error (f, s)
  | .ok _, some r => .error (.system (.moving r temporary path), s)
  | .ok _, none =>
      match s.move here source path with
      | .error r => .error (.system (.moving r temporary path), s)
      | .ok s' => .ok s'

/-- What is done with the temporary file, effect by effect. -/
def finish (s : Store) (refusals : Refusals) (mask : Mode) (temporary here path : Text)
    (source : Location) (data : Bytes) (mode : Mode) : Except (StoreFault × Store) Store := do
  let filled ← s.fill refusals mask source data
  let complete ← filled.setMode refusals temporary source data mode
  complete.moveInto refusals temporary here path source

/-- Replaces the content of the file at `path`, or makes the file, under a mask for new files. The
store is given back also when the operation fails. -/
def replace (s : Store) (refusals : Refusals) (mask : Mode) (here path : Text) (data : Bytes) :
    Except StoreFault Unit × Store :=
  let temporary := Path.join (temporaryDirectory here path) (s.temporaryFor here path)
  match s.locate here temporary, refusals.create with
  | .error f, _ => (.error f, s)
  | .ok _, some r => (.error (.system (.about r temporary)), s)
  | .ok source, none =>
      match (s.set source (.file [] (privateMode mask))).finish refusals mask temporary here path
          source data (s.modeUnder mask here path) with
      | .error (f, reached) => (.error f, reached.erase source)
      | .ok s' => (.ok (), s')

end Store

end LocaleKeys
