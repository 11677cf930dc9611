import LocaleKeys.Problem
import LocaleKeys.Text.Utf8

/-!
# Artifacts

An artifact is one generated file: its name and its whole text. Which artifacts a run makes depends
on the output mode: in `single` mode one file holds both the type and the constant, in `dual` mode
each has a file of its own.
-/

namespace LocaleKeys

structure Artifact where
  name : Text
  content : Text
deriving DecidableEq, Repr

namespace Artifact

def encode (a : Artifact) : Except Utf8.EncodeFault Bytes := Utf8.encode a.content

def typesName : Text := "translations.d.ts"

def keysName : Text := "translations.ts"

end Artifact

inductive OutputMode where
  | single
  | dual
deriving DecidableEq, Repr

namespace OutputMode

def name : OutputMode → Text
  | single => "single"
  | dual => "dual"

def ofName? (name : Text) : Option OutputMode := [single, dual].find? (·.name = name)

/-- The names of the artifacts of a mode, in the order in which they are written. -/
def artifactNames : OutputMode → List Text
  | single => [Artifact.keysName]
  | dual => [Artifact.typesName, Artifact.keysName]

/-- The names of the artifacts of the mode with a given name; an unknown mode is taken for `single`.
-/
def expectedNames (name : Text) : List Text := ((ofName? name).getD single).artifactNames

end OutputMode

end LocaleKeys
