import LocaleKeys.Artifact.Basic
import LocaleKeys.Json.Printer
import LocaleKeys.KeyTree.Basic

/-!
# Rendering

The text of the artifacts: a type that is the union of all dotted paths, and a constant with the
shape of the document in which every leaf holds its own path. String literals are those of JSON,
which TypeScript reads the same way.
-/

namespace LocaleKeys

namespace Rendering

def unionMember (path : Text) : Text := "  | " ++ Json.quote path

/-- The type of all paths; without a path nothing has that type. -/
def union : List Text → Text
  | [] => "export type TranslationKey = never;"
  | paths =>
      "export type TranslationKey =\n" ++ Text.join "\n" (paths.map unionMember) ++ ";"

def constant (members : List (Text × Json)) : Text :=
  "export const TRANSLATION_KEYS = " ++ Json.print (.obj members) ++ ";"

def reexport : Text := "export type \x7b TranslationKey \x7d from './translations.d';"

/-- The comment lines at the top of an artifact. With `lint` a line that turns a lint rule off
precedes the description of the file. -/
def header (description : Text) (lint : Bool) : List Text :=
  if lint then ["/* eslint-disable quotes */", description]
  else ["/* This file is auto-generated. */"]

def typesDescription : Text :=
  "/* This file is auto-generated. Disabling quotes rule to avoid conflicts with " ++
    "extracted translation keys. */"

def keysDescription : Text :=
  "/* This file is auto-generated. Contains actual translation key values. */"

/-- The text of a file: the header, and the blocks with an empty line between each two. -/
def file (header blocks : List Text) : Text :=
  Text.join "\n" header ++ "\n" ++ Text.join "\n\n" blocks ++ "\n"

def artifactsOf (mode : OutputMode) (lint : Bool) (paths : List Text)
    (members : List (Text × Json)) : List Artifact :=
  match mode with
  | .dual =>
      [⟨Artifact.typesName, file (header typesDescription lint) [union paths]⟩,
        ⟨Artifact.keysName, file (header keysDescription lint) [reexport, constant members]⟩]
  | .single =>
      [⟨Artifact.keysName, file (header keysDescription lint) [union paths, constant members]⟩]

def artifacts (mode : Text) (lint : Bool) (paths : List Text) (members : List (Text × Json)) :
    Except Problem (List Artifact) :=
  match OutputMode.ofName? mode with
  | some m => .ok (artifactsOf m lint paths members)
  | none => .error (.unknownMode mode)

def ofTree {α : Type} (mode : Text) (lint : Bool) (t : KeyTree α) :
    Except Problem (List Artifact) :=
  artifacts mode lint (t.paths []) (t.withPaths []).toMembers

end Rendering

end LocaleKeys
