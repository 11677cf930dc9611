import LocaleKeys.Calendar.Clock
import LocaleKeys.CommandLine.Crash
import LocaleKeys.CommandLine.Footprint
import LocaleKeys.Store.Difference
import LocaleKeys.Yaml.Document

/-!
# The program

This module alone touches the machine. It reads the directories that a command looks into, carries
the command out on what it has read, and then makes the differences on the disk. Formatters are not
started from here: to a command none is installed.
-/

namespace LocaleKeys

namespace Program

def plain (t : Text) : String := String.ofList t.toChars

def bytesOf (t : Text) : ByteArray := (plain t).toUTF8

def pathOf (l : Location) : String := "/" ++ plain (Text.join [Path.slash] l)

/-- The mode of a file of which only the content is known, and of a directory. -/
def fileMode : Mode := 0o644

def directoryMode : Mode := 0o755

def addEntry (withContent : Bool) (s : Store) (l : Location) : IO Store := do
  let place := (← IO.FS.realPath "/") / pathOf l
  if ← place.isDir then return s.set l (.directory directoryMode)
  if !(← place.pathExists) then return s
  if !withContent then return s.set l (.file [] fileMode)
  match ← (IO.FS.readBinFile place).toBaseIO with
  | .ok bytes => return s.set l (.file bytes.toList fileMode)
  | .error _ => return s

/-- A store with a directory of the machine: the directories on the way there, and what stands
directly in it. -/
def addDirectory (s : Store) (path : Text) : IO Store := do
  let l := Path.segments path
  let mut s := s
  for n in List.range l.length do
    s ← addEntry false s (l.take (n + 1))
  let place := (← IO.FS.realPath "/") / pathOf l
  if ← place.isDir then
    for e in ← place.readDir do
      s ← addEntry true s (l ++ [Text.ofString e.fileName])
  return s

/-- A store with what a command looks into. The first round finds the option file, and the second
one the directories that it names. Staging directories exist in the store only. -/
def snapshot (host : Host) (words : List Text) : IO Store := do
  let mut s := Store.empty.makeDirectories directoryMode (Path.segments Verification.stagingParent)
  for _ in List.range 2 do
    for d in Session.directories host words s do
      s ← addDirectory s (Path.absolute host.here d)
  return s

def apply (l : Location) : Change → IO Unit
  | .created (.directory _) => IO.FS.createDirAll (pathOf l)
  | .modified (.directory _) => IO.FS.createDirAll (pathOf l)
  | .created (.file bytes _) => IO.FS.writeBinFile (pathOf l) ⟨bytes.toArray⟩
  | .modified (.file bytes _) => IO.FS.writeBinFile (pathOf l) ⟨bytes.toArray⟩
  | .removed => IO.FS.removeFile (pathOf l)

/-- The time of day, which a file that is made now bears. -/
def now : IO Text := do
  let (_, place) ← IO.FS.createTempFile
  let made := (← place.metadata).modified
  IO.FS.removeFile place
  return (DateTime.ofSeconds made.sec.toNat).text ' '

def variablesIn (block : Bytes) : Variables :=
  match Utf8.decode block with
  | .error _ => []
  | .ok cs =>
      (Text.split (.scalar '\x00') (Text.ofChars cs)).filterMap fun entry =>
        match Text.cut Arguments.equalSign entry with
        | (name, some value) => some (name, value)
        | (_, none) => none

def linesOf (place : String) : IO (List Text) := do
  match ← (IO.FS.readBinFile place).toBaseIO with
  | .ok block =>
      let cs := (Utf8.decode block.toList).toOption.getD []
      return Text.split (.scalar '\n') (Text.ofChars cs)
  | .error _ => return []

/-- The first word behind a title in lines such as `Umask: 0022`. -/
def wordBehind? (title : Text) (lines : List Text) : Option Text :=
  (lines.find? title.isPrefixOf).map fun line =>
    (Text.trim (line.drop title.length)).takeWhile (!·.isBlank)

def accountOf? (line : Text) : Option (Text × Text × Text) :=
  match Text.split (.scalar ':') line with
  | [name, _, number, _, _, home, _] => some (name, number, home)
  | _ => none

def environment (status : List Text) : IO Environment := do
  let bindings ← match ← (IO.FS.readBinFile "/proc/self/environ").toBaseIO with
    | .ok block => pure (variablesIn block.toList)
    | .error _ => do
        let named ← ["HOME", "COLUMNS"].mapM fun name => do
          return (← IO.getEnv name).toList.map fun v => (Text.ofString name, Text.ofString v)
        pure named.flatten
  let accounts := (← linesOf "/etc/passwd").filterMap accountOf?
  let own := accounts.find? fun (_, number, _) => some number = wordBehind? "Uid:" status
  return { bindings, ownHome := own.map (·.2.2)
           homes := accounts.map fun (name, _, home) => (name, home) }

def umask (status : List Text) : Mode :=
  match wordBehind? "Umask:" status with
  | some digits => Digits.value 8 (Text.toChars digits)
  | none => 0o022

/-- The machine as a command knows it: no formatter is installed, and nothing is refused that is in
the snapshot. -/
def host : IO Host := do
  let status ← linesOf "/proc/self/status"
  return { here := Text.ofString (← IO.currentDir).toString
           environment := ← environment status
           tools := []
           yaml := Yaml.readBytes
           umask := umask status }

def print (log : Text) (p : Printed) : IO Unit := do
  let errors ← IO.getStderr
  errors.write (bytesOf (log ++ p.errors))
  let output ← IO.getStdout
  output.write (bytesOf p.output)
  output.flush

def crash (f : Failure) : IO Nat := do
  let x := Crash.ofFailure f
  match x.ending .english with
  | .ok e =>
      print (Session.printLine x.record.message) e.printed
      return e.exit
  | .error _ => return 1

end Program

end LocaleKeys

open LocaleKeys

def main (words : List String) : IO UInt32 := do
  let host ← Program.host
  let words := words.map Text.ofString
  let before ← Program.snapshot host words
  let (report, w) := Session.command host (← Program.now) .english words { store := before }
  for (l, change) in Store.differences before w.store do
    Program.apply l change
  Program.print report.log report.printed
  match report.ending with
  | .ok exit => return exit.toUInt32
  | .error f => return (← Program.crash f).toUInt32
