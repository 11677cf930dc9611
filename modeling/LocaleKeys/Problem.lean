import LocaleKeys.Json.Reader
import LocaleKeys.KeyTree.Names
import LocaleKeys.Store.Fault

/-!
# Problems that a run reports

A problem is something about the user's files or options that ends a run with a message. Its kind is
a stable name for other programs; the message is for people.
-/

namespace LocaleKeys

/-- The kinds of problems, with the two that a run reports without a `Problem`: committed files that
differ, and files that cannot be written. -/
inductive ProblemKind where
  | generation
  | missingConfiguration
  | directoryNotFound
  | noInputFound
  | malformedInput
  | invalidKeyName
  | invalidOutputMode
  | driftMismatch
  | externalToolMissing
deriving DecidableEq, Repr

def ProblemKind.name : ProblemKind → Text
  | generation => "GenerationError"
  | missingConfiguration => "MissingConfiguration"
  | directoryNotFound => "DirectoryNotFound"
  | noInputFound => "NoInputFound"
  | malformedInput => "MalformedInput"
  | invalidKeyName => "InvalidKeyName"
  | invalidOutputMode => "InvalidOutputMode"
  | driftMismatch => "DriftMismatch"
  | externalToolMissing => "ExternalToolMissing"

inductive ConfigSyntax where
  | json (m : Json.Mistake) (p : Json.Place)
  | yaml (message : Text)
deriving DecidableEq, Repr

def ConfigSyntax.message : ConfigSyntax → Text
  | json m p => m.describe p
  | yaml message => message

inductive Problem where
  | inputAbsent (directory : Text)
  | inputUnlisted (directory : Text) (e : SystemError)
  | outputAbsent (directory : Text)
  | noDocument (directory : Text)
  | documentUnread (path : Text) (e : SystemError)
  | documentUndecoded (path : Text) (f : Utf8.DecodeFault)
  | documentSyntax (path : Text) (m : Json.Mistake) (p : Json.Place)
  | documentRoot (path typeName : Text)
  | unwrappedType (key typeName : Text)
  | misnamedKeys (locations : List Text)
  | unknownMode (mode : Text)
  | invalidMode (mode : Text)
  | inputNotGiven
  | outputNotGiven
  | configAbsent (path : Text)
  | configUnread (path : Text) (e : SystemError)
  | configSyntax (path : Text) (s : ConfigSyntax)
  | configRoot (path typeName : Text)
  | formatterAbsent (name : Text)
deriving DecidableEq, Repr

def outputModeNames : List Text := ["single", "dual"]

namespace Problem

def kind : Problem → ProblemKind
  | inputAbsent _ | inputUnlisted _ _ | outputAbsent _ => .directoryNotFound
  | noDocument _ => .noInputFound
  | documentUnread _ _ | documentUndecoded _ _ | documentSyntax _ _ _ | documentRoot _ _
  | unwrappedType _ _ => .malformedInput
  | misnamedKeys _ => .invalidKeyName
  | unknownMode _ | invalidMode _ => .invalidOutputMode
  | inputNotGiven | outputNotGiven | configAbsent _ | configUnread _ _ | configSyntax _ _
  | configRoot _ _ => .missingConfiguration
  | formatterAbsent _ => .externalToolMissing

def message : Problem → Text
  | inputAbsent d => "Translation directory '" ++ d ++ "' does not exist."
  | inputUnlisted d e => "Translation directory '" ++ d ++ "' cannot be read: " ++ e.message
  | outputAbsent d => "Output directory '" ++ d ++ "' does not exist. Please create it first."
  | noDocument d => "No JSON translation files found in '" ++ d ++ "'."
  | documentUnread p e => "Cannot read '" ++ p ++ "': " ++ e.message
  | documentUndecoded p f => "Cannot read '" ++ p ++ "': " ++ f.message
  | documentSyntax p m place => "JSON format error in '" ++ p ++ "': " ++ m.describe place
  | documentRoot p t =>
      "JSON format error in '" ++ p ++ "': root must be an object, found " ++ t ++ "."
  | unwrappedType k t => "Exclude key '" ++ k ++ "' must hold an object, found " ++ t ++ "."
  | misnamedKeys locations => KeyTree.misnamedMessage locations
  | unknownMode m => "Unknown output mode '" ++ m ++ "'."
  | invalidMode m =>
      "Invalid output mode '" ++ m ++ "'. Expected one of: " ++
        Text.join ", " outputModeNames ++ "."
  | inputNotGiven => "No input directory specified. Use --input <path>."
  | outputNotGiven => "No output directory specified. Use --output <path>."
  | configAbsent p => "Config file '" ++ p ++ "' does not exist."
  | configUnread p e => "Config file '" ++ p ++ "' could not be read: " ++ e.message
  | configSyntax p s => "Config file '" ++ p ++ "' is not valid: " ++ s.message
  | configRoot p t => "Config file '" ++ p ++ "' must contain a mapping, found " ++ t ++ "."
  | formatterAbsent n => "Formatter '" ++ n ++ "' is not installed."

end Problem

end LocaleKeys
