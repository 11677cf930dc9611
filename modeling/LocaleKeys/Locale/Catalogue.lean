import LocaleKeys.Json.Reader
import LocaleKeys.KeyTree.Basic
import LocaleKeys.Locale.Template
import LocaleKeys.Run.Action

/-!
# Catalogues

A catalogue holds the texts of a locale as a document of nested objects. A dotted path names a text;
where it names none, the default that the caller gives takes its place, and the path itself where
that is empty. Loading a locale that is missing or malformed leaves an empty catalogue.
-/

namespace LocaleKeys

structure Catalogue where
  texts : Json
  locale : Text
  isLoaded : Bool

namespace Catalogue

def descend : Json → List Text → Option Json
  | v, [] => some v
  | .obj members, key :: keys =>
      match Json.find? key members with
      | some v => descend v keys
      | none => none
  | _, _ :: _ => none

/-- The text at a dotted path, or else the default, or else the path. -/
def text (c : Catalogue) (path default : Text) : Text :=
  match descend c.texts (Text.split KeyTree.separator path) with
  | some (.str t) => t
  | _ => if default.isEmpty then path else default

/-- The names that no argument may have, since they are those of what is asked for. -/
def takenNames : List Text := ["self", "key", "default"]

def message (c : Catalogue) (path default : Text) (arguments : Template.Arguments) :
    Except Failure Text :=
  match arguments.find? (takenNames.contains ·.1) with
  | some (name, _) => .error (.placeholder (.argumentTwice name))
  | none => Template.fill arguments (c.text path default)

/-- The catalogue without texts that is left when a locale cannot be loaded; it keeps the name of
the old one. -/
def cleared (c : Catalogue) : Catalogue := { c with texts := .obj [], isLoaded := false }

def suffix : Text := ".json"

/-- Loads a locale from its document in a directory. A document that cannot be read counts as
missing; bytes that are not UTF-8, and integers with too many digits, are failures. -/
def load (host : Host) (directory locale : Text) (s : Store) (c : Catalogue) :
    Except Failure Catalogue :=
  match host.content (Path.join directory (locale ++ suffix)) s with
  | .error _ => .ok c.cleared
  | .ok bytes =>
      match Utf8.decode bytes with
      | .error f => .error (.decoding f)
      | .ok cs =>
          match Json.read (Text.universalLines cs) with
          | .ok texts => .ok ⟨texts, locale, true⟩
          | .error (.syntaxError _ _) => .ok c.cleared
          | .error (.tooManyDigits n) => .error (.value (.integerDigits n))

private def object (members : List (String × Json)) : Json :=
  .obj (members.map fun (k, v) => (Text.ofString k, v))

private def words (s : String) : Json := .str (Text.ofString s)

def englishTexts : Json :=
  object [
    ("app", object [
      ("description",
        words ("Generate TypeScript translation key types and constants from a JSON " ++
          "localization bundle."))]),
    ("cli", object [
      ("args", object [
        ("input",
          words ("Directory containing the JSON translation files (the first file defines " ++
            "the keys).")),
        ("output", words "Existing directory where the generated TypeScript files are written."),
        ("exclude_key",
          words "Top-level key whose content replaces the document root (e.g. 'translation')."),
        ("output_mode",
          words ("'dual' writes translations.d.ts and translations.ts; 'single' writes " ++
            "translations.ts only.")),
        ("disable_eslint_quotes",
          words "Prefix generated files with '/* eslint-disable quotes */'."),
        ("format", words "Format generated files with prettier when it is installed."),
        ("no_emit", words "Do not write files; fail if the committed files are out of date."),
        ("cwd", words "Project root used to find the config file and resolve relative paths."),
        ("config", words "Explicit config file (YAML or JSON)."),
        ("dump_config", words "Print the resolved configuration as JSON and exit."),
        ("json", words "Print the execution result as JSON."),
        ("debug", words "Elevate logging verbosity to DEBUG."),
        ("log_file", words "Also write logs to this file.")]),
      ("status", object [
        ("success",
          words "✅ Successfully generated translation types and constants in '\x7bpath\x7d'!"),
        ("verified", words "✅ \x7bmessage\x7d"),
        ("keys", words "Translation keys: \x7bcount\x7d"),
        ("source", words "Key schema read from: \x7bpath\x7d"),
        ("interrupted", words "Generation interrupted by user.")]),
      ("errors", object [
        ("prefix", words "❌ \x7bmessage\x7d"),
        ("unexpected", words "Unexpected failure: \x7berror\x7d")])])]

def english : Catalogue := ⟨englishTexts, "en", true⟩

end Catalogue

end LocaleKeys
