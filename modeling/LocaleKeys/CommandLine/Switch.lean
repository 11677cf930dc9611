import LocaleKeys.Text.Basic

/-!
# Options of the command line

Every option has one or two spellings. Some take a value, for which the usage shows a placeholder;
the others are switched on by being named.
-/

namespace LocaleKeys

inductive Switch where
  | help
  | input
  | output
  | projectRoot
  | config
  | excludeKey
  | outputMode
  | disableEslintQuotes
  | format
  | noEmit
  | dumpConfig
  | json
  | debug
  | logFile
deriving DecidableEq, Repr

namespace Switch

def all : List Switch :=
  [help, input, output, projectRoot, config, excludeKey, outputMode, disableEslintQuotes, format,
    noEmit, dumpConfig, json, debug, logFile]

def spellings : Switch → List Text
  | help => ["-h", "--help"]
  | input => ["-i", "--input"]
  | output => ["-o", "--output"]
  | projectRoot => ["--cwd"]
  | config => ["--config"]
  | excludeKey => ["--exclude-key"]
  | outputMode => ["--output-mode"]
  | disableEslintQuotes => ["--disable-eslint-quotes"]
  | format => ["--format"]
  | noEmit => ["--no-emit"]
  | dumpConfig => ["--dump-config"]
  | json => ["--json"]
  | debug => ["--debug"]
  | logFile => ["--log-file"]

def placeholder? : Switch → Option Text
  | input => some "INPUT_PATH"
  | output => some "OUTPUT_PATH"
  | projectRoot => some "PROJECT_ROOT"
  | config => some "CONFIG_PATH"
  | excludeKey => some "EXCLUDE_KEY"
  | outputMode => some "\x7bsingle,dual\x7d"
  | logFile => some "LOG_FILE"
  | help | disableEslintQuotes | format | noEmit | dumpConfig | json | debug => none

def takesValue (s : Switch) : Bool := s.placeholder?.isSome

/-- The path of the explanation of an option among the texts of a locale; the help explains itself.
-/
def helpPath : Switch → Text
  | help => "show this help message and exit"
  | input => "cli.args.input"
  | output => "cli.args.output"
  | projectRoot => "cli.args.cwd"
  | config => "cli.args.config"
  | excludeKey => "cli.args.exclude_key"
  | outputMode => "cli.args.output_mode"
  | disableEslintQuotes => "cli.args.disable_eslint_quotes"
  | format => "cli.args.format"
  | noEmit => "cli.args.no_emit"
  | dumpConfig => "cli.args.dump_config"
  | json => "cli.args.json"
  | debug => "cli.args.debug"
  | logFile => "cli.args.log_file"

def spelled : List (Text × Switch) := all.flatMap fun s => s.spellings.map (·, s)

def ofSpelling? (spelling : Text) : Option Switch := spelled.lookup spelling

def fullName (s : Switch) : Text := Text.join "/" s.spellings

end Switch

end LocaleKeys
