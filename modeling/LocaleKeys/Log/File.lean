import LocaleKeys.Failure
import LocaleKeys.Log.Record
import LocaleKeys.Store.Access

/-!
# Log files

A log file grows at its end. When a line would bring it to its largest size it first becomes the
first backup, the first backup the second, and so on; the oldest backup is given up. Without backups
the file just goes on growing. A directory in the place of a backup is moved on like any other, but
not given up: the line that asks for that is lost.

A log file stays open while lines are written. If another file takes its place in the meantime, the
further lines go to the old one, which nobody can find any more.
-/

namespace LocaleKeys

structure LogFile where
  /-- An absolute path. -/
  path : Text
  /-- The size in bytes at which the file is replaced; none if it is not positive. -/
  maxBytes : Int
  backups : Int
  /-- The content of the open file. -/
  content : Bytes
deriving DecidableEq, Repr

namespace LogFile

def backupPath (path : Text) (n : Nat) : Text := path ++ "." ++ Text.ofNat n

/-- Makes the directories on the way to `names`, below those that are there already. -/
def makeDirectories (here : Text) (mask : Mode) (above : List Text) :
    List Text → Store → Except StoreFault Unit × Store
  | [], s => (.ok (), s)
  | name :: names, s =>
      let path := Path.slash :: Text.join [Path.slash] (above ++ [name])
      if s.isPresent here path then makeDirectories here mask (above ++ [name]) names s
      else
        match s.locate here path with
        | .error f => (.error f, s)
        | .ok l =>
            makeDirectories here mask (above ++ [name]) names
              (s.set l (.directory (newDirectoryMode mask)))

def prepareDirectory (here : Text) (mask : Mode) (path : Text) (s : Store) :
    Except StoreFault Unit × Store :=
  let directory := Path.directory path
  if s.isPresent here directory then (.ok (), s)
  else makeDirectories here mask [] (Path.segments directory) s

def openAt (here : Text) (mask : Mode) (path : Text) (s : Store) :
    Except StoreFault (Bytes × Store) :=
  match s.locate here path with
  | .error f => .error f
  | .ok l =>
      match s.get? l with
      | some (.file content _) => .ok (content, s)
      | some (.directory _) => .error (.system (.about .isDirectory path))
      | none => .ok ([], s.set l (.file [] (newFileMode mask)))

/-- Gives a file or directory another path, and says whether that is allowed: a file that has the
path is given up, a directory is not. -/
def rename (here source target : Text) (s : Store) : Bool × Store :=
  match s.entry here source, s.locate here target with
  | .error _, _ => (true, s)
  | .ok _, .error _ => (false, s)
  | .ok (l, _), .ok m =>
      match s.get? m with
      | some (.directory _) => (false, s)
      | some (.file _ _) => (true, (s.erase m).moveTree l m)
      | none => (true, s.moveTree l m)

/-- Makes room for the first backup, from backup `n` down, as far as that is allowed. -/
def shiftBackups (here path : Text) : Nat → Store → Bool × Store
  | 0, s => (true, s)
  | n + 1, s =>
      match rename here (backupPath path (n + 1)) (backupPath path (n + 2)) s with
      | (true, s) => shiftBackups here path n s
      | (false, s) => (false, s)

/-- Turns a log file into its first backup, if backups are kept and that is allowed. -/
def rotate (here : Text) (f : LogFile) (s : Store) : Bool × Store :=
  if f.backups ≤ 0 then (true, s)
  else
    match shiftBackups here f.path (f.backups.toNat - 1) s with
    | (true, s) => rename here f.path (backupPath f.path 1) s
    | (false, s) => (false, s)

def reopen (here : Text) (mask : Mode) (f : LogFile) (s : Store) : LogFile × Store :=
  match openAt here mask f.path s with
  | .ok (content, s) => ({ f with content }, s)
  | .error _ => (f, s)

/-- Whether a line brings a log file to its largest size. The file is measured in bytes, the line in
characters. -/
def isFull (here line : Text) (f : LogFile) (s : Store) : Bool :=
  !s.isDirectory here f.path && 0 < f.maxBytes && f.maxBytes ≤ f.content.length + line.length

/-- Adds bytes at the end of a log file. The store shows them if the file is still in its place. -/
def append (here : Text) (bytes : Bytes) (f : LogFile) (s : Store) : LogFile × Store :=
  let content := f.content ++ bytes
  let s := match s.entry here f.path with
    | .ok (l, .file old mode) => if old = f.content then s.set l (.file content mode) else s
    | _ => s
  ({ f with content }, s)

/-- Writes the line of a record. A line that cannot be written as bytes is left out. -/
def write (here : Text) (mask : Mode) (time : Text) (r : Record) (f : LogFile) (s : Store) :
    LogFile × Store :=
  let line := r.fileLine time ++ "\n"
  let (hasRoom, f, s) :=
    if isFull here line f s then
      let (hasRoom, s) := rotate here f s
      (hasRoom, reopen here mask f s)
    else (true, f, s)
  match hasRoom, Utf8.encode line with
  | true, .ok bytes => append here bytes f s
  | _, _ => (f, s)

def writeAll (here : Text) (mask : Mode) (time : Text) : List Record → LogFile → Store → Store
  | [], _, s => s
  | r :: rs, f, s =>
      let (f, s) := write here mask time r f s
      writeAll here mask time rs f s

end LogFile

end LocaleKeys
