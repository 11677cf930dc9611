import LocaleKeys.CommandLine.Session

/-!
# The directories of a command

A command looks only into a few directories: those of its option file and of its log file, and
those of the documents and of the artifacts. Where the last two are is known only when the option
file has been read, so that `directories` depends on the files that are known so far, and lists more
once the directory of the option file is among them.
-/

namespace LocaleKeys

namespace Session

def namedDirectories (root : Text) (a : Arguments) : List Text :=
  match a.configPath with
  | none | some [] => []
  | some name => [Path.directory (Path.join root name)]

def logDirectories (host : Host) (a : Arguments) : List Text :=
  match a.logFile with
  | none | some [] => []
  | some name => [Path.directory (Path.absolute host.here name)]

def runDirectories (host : Host) (root : Text) (a : Arguments) (s : Store) : List Text :=
  match (settings host root a).runOn { store := s } with
  | (.ok (settings, _, _), _) => [settings.inputPath, settings.outputPath]
  | (.error _, _) => []

/-- The directories that a command looks into, as far as the files of a store tell. -/
def directories (host : Host) (words : List Text) (s : Store) : List Text :=
  match Arguments.read words with
  | .error _ => []
  | .ok a =>
      let root := projectRoot host a
      (root :: namedDirectories root a) ++ logDirectories host a ++ runDirectories host root a s

end Session

end LocaleKeys
