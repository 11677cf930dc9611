import LocaleKeys.Config.Value
import LocaleKeys.Problem

/-!
# Options

The options of a run by name. An option file may use several spellings for an option, the program
itself uses one. A layer of options, such as a file or the command line, gives values to some of
them; `overlay` puts one layer over another, and `find?` is the value that a layer gives to an
option.
-/

namespace LocaleKeys

inductive OptionName where
  | inputPath
  | outputPath
  | excludeKey
  | outputMode
  | disableEslintQuotes
  | format
  | formatter
  | noEmit
deriving DecidableEq, Repr

namespace OptionName

def all : List OptionName :=
  [inputPath, outputPath, excludeKey, outputMode, disableEslintQuotes, format, formatter, noEmit]

def text : OptionName → Text
  | inputPath => "input_path"
  | outputPath => "output_path"
  | excludeKey => "exclude_key"
  | outputMode => "output_mode"
  | disableEslintQuotes => "disable_eslint_quotes"
  | format => "format"
  | formatter => "formatter"
  | noEmit => "no_emit"

def spellings : OptionName → List Text
  | inputPath => ["input", "input_path", "inputPath"]
  | outputPath => ["output", "output_path", "outputPath"]
  | excludeKey => ["excludeKey", "exclude-key", "exclude_key"]
  | outputMode => ["outputMode", "output-mode", "output_mode"]
  | disableEslintQuotes => ["disableEslintQuotes", "disable-eslint-quotes", "disable_eslint_quotes"]
  | format => ["format"]
  | formatter => ["formatter"]
  | noEmit => ["noEmit", "no-emit", "no_emit"]

def ofSpelling? (spelling : Text) : Option OptionName := all.find? (·.spellings.contains spelling)

def ofText? (name : Text) : Option OptionName := all.find? (·.text = name)

def defaultFormatter : Text := "prettier"

def defaultOutputMode : Text := "dual"

def default : OptionName → Value
  | inputPath => .null
  | outputPath => .null
  | excludeKey => .null
  | outputMode => .str defaultOutputMode
  | disableEslintQuotes => .bool false
  | format => .bool false
  | formatter => .str defaultFormatter
  | noEmit => .bool false

end OptionName

/-- Values for options, in the order in which they were first set. -/
abbrev Layer (κ : Type) := List (κ × Value)

namespace Layer

variable {κ : Type} [DecidableEq κ]

def set (name : κ) (value : Value) : Layer κ → Layer κ
  | [] => [(name, value)]
  | (k, v) :: l => if k = name then (k, value) :: l else (k, v) :: set name value l

def find? (l : Layer κ) (name : κ) : Option Value := l.lookup name

/-- The layer `upper` over the layer `lower`; a null in the upper layer sets nothing. -/
def overlay (lower upper : Layer κ) : Layer κ :=
  upper.foldl (fun l (k, v) => match v with
    | .null => l
    | v => l.set k v) lower

end Layer

abbrev Options := Layer OptionName

end LocaleKeys
