import LocaleKeys.CommandLine.Switch
import LocaleKeys.Config.Option
import LocaleKeys.Text.DecimalDigit
import LocaleKeys.Text.Quoted

/-!
# Arguments

Reading the words of a command line. A word that begins with a hyphen names an option, by its full
spelling or by a beginning of a long spelling that fits only one; a value may follow in the same
word or in the next one. After `--` no word names an option. The program takes no arguments besides
options, so that any other word is refused in the end.
-/

namespace LocaleKeys

/-- What the words of a command line come to. -/
structure Arguments where
  inputPath : Option Text := none
  outputPath : Option Text := none
  projectRoot : Option Text := none
  configPath : Option Text := none
  excludeKey : Option Text := none
  outputMode : Option Text := none
  logFile : Option Text := none
  disableEslintQuotes : Bool := false
  format : Bool := false
  noEmit : Bool := false
  dumpConfig : Bool := false
  json : Bool := false
  debug : Bool := false
deriving DecidableEq, Repr

inductive UsageFault where
  | ambiguous (word : Text) (spellings : List Text)
  | valueMissing (s : Switch)
  | valueIgnored (s : Switch) (value : Text)
  | unrecognized (words : List Text)
deriving DecidableEq, Repr

def UsageFault.message : UsageFault → Text
  | ambiguous w ss => "ambiguous option: " ++ w ++ " could match " ++ Text.join ", " ss
  | valueMissing s => "argument " ++ s.fullName ++ ": expected one argument"
  | valueIgnored s v => "argument " ++ s.fullName ++ ": ignored explicit argument " ++ Text.quoted v
  | unrecognized ws => "unrecognized arguments: " ++ Text.join " " ws

/-- Why reading ends before there are arguments: the help is asked for, or the words are wrong. -/
inductive ArgumentsExit where
  | help
  | usage (f : UsageFault)
deriving DecidableEq, Repr

namespace Arguments

def dash : CodePoint := '-'

def equalSign : CodePoint := '='

/-- What a word is: a word that names an option may hold a value for it too. -/
inductive Word where
  | plain
  | unknown
  | named (s : Switch) (spelling : Text) (attached : Option Text)
deriving DecidableEq, Repr

/-- Whether a word looks like a negative number, in the digits of any script. -/
def isNegativeNumber (word : Text) : Bool :=
  let body := match word.getLast? with
    | some (.scalar '\n') => word.dropLast
    | _ => word
  match body with
  | d :: t =>
      d = dash &&
        match Text.cut '.' t with
        | (ds, none) => !ds.isEmpty && ds.all CodePoint.isDecimal
        | (ds, some rest) =>
            ds.all CodePoint.isDecimal && !rest.isEmpty && rest.all CodePoint.isDecimal
  | [] => false

def matching (word : Text) : List (Text × Word) :=
  if (Text.ofString "--").isPrefixOf word then
    let (beginning, value) := Text.cut equalSign word
    (Switch.spelled.filter fun e => beginning.isPrefixOf e.1).map fun (spelling, s) =>
      (spelling, .named s spelling value)
  else
    Switch.spelled.filterMap fun (spelling, s) =>
      if spelling = word.take 2 then some (spelling, .named s spelling (some (word.drop 2)))
      else if word.isPrefixOf spelling then some (spelling, .named s spelling none)
      else none

/-- What a word is, before `--`. -/
def classify (word : Text) : Except UsageFault Word :=
  if word.head? ≠ some dash then .ok .plain
  else
    match Switch.ofSpelling? word with
    | some s => .ok (.named s word none)
    | none =>
        if word.length = 1 then .ok .plain
        else
          let spelled : Option Word :=
            match Text.cut equalSign word with
            | (spelling, some value) =>
                (Switch.ofSpelling? spelling).map fun s => .named s spelling (some value)
            | (_, none) => none
          match spelled with
          | some w => .ok w
          | none =>
              match matching word with
              | [] =>
                  if isNegativeNumber word || word.contains (.scalar ' ') then .ok .plain
                  else .ok .unknown
              | [(_, w)] => .ok w
              | several => .error (.ambiguous word (several.map (·.1)))

def classifyAll : List Text → Except UsageFault (List (Text × Option Word))
  | [] => .ok []
  | word :: words => do
      if word = Text.ofString "--" then
        return (word, none) :: words.map (·, some .plain)
      let w ← classify word
      return (word, some w) :: (← classifyAll words)

/-- What a word with options comes to: the options with their values, and whether the next word is
one of them. -/
structure Taken where
  settings : List (Switch × Text)
  usesNext : Bool := false

/-- Takes the options of one word; `next` is the following word if it may be a value. After an
option of one letter that takes no value, further letters are options too. -/
def take (next : Option Text) :
    (fuel : Nat) → Switch → Text → Option Text → Except UsageFault Taken
  | 0, s, _, _ => .error (.valueMissing s)
  | fuel + 1, s, spelling, attached =>
      match attached with
      | none =>
          if !s.takesValue then .ok { settings := [(s, [])] }
          else
            match next with
            | some value => .ok { settings := [(s, value)], usesNext := true }
            | none => .error (.valueMissing s)
      | some value =>
          if s.takesValue then .ok { settings := [(s, value)] }
          else if spelling[1]? = some dash then .error (.valueIgnored s value)
          else
            let spelling := dash :: value.take 1
            match Switch.ofSpelling? spelling with
            | none => .error (.valueIgnored s value)
            | some further => do
                let rest := value.drop 1
                let attached := if rest.isEmpty then none else some rest
                let taken ← take next fuel further spelling attached
                return { taken with settings := (s, []) :: taken.settings }

def set (a : Arguments) (s : Switch) (value : Text) : Except ArgumentsExit Arguments :=
  match s with
  | .help => .error .help
  | .input => .ok { a with inputPath := some value }
  | .output => .ok { a with outputPath := some value }
  | .projectRoot => .ok { a with projectRoot := some value }
  | .config => .ok { a with configPath := some value }
  | .excludeKey => .ok { a with excludeKey := some value }
  | .outputMode => .ok { a with outputMode := some value }
  | .logFile => .ok { a with logFile := some value }
  | .disableEslintQuotes => .ok { a with disableEslintQuotes := true }
  | .format => .ok { a with format := true }
  | .noEmit => .ok { a with noEmit := true }
  | .dumpConfig => .ok { a with dumpConfig := true }
  | .json => .ok { a with json := true }
  | .debug => .ok { a with debug := true }

def setAll (a : Arguments) : List (Switch × Text) → Except ArgumentsExit Arguments
  | [] => .ok a
  | (s, value) :: rest => do setAll (← a.set s value) rest

/-- Sets the options that the words name; `extra` are the words that name none. With `skip` the
first word is the value of the option before it. -/
def collect (a : Arguments) (extra : List Text) (skip : Bool) :
    List (Text × Option Word) → Except ArgumentsExit (Arguments × List Text)
  | [] => .ok (a, extra)
  | (word, w) :: rest =>
      if skip then collect a extra false rest
      else
        match w with
        | some (.named s spelling attached) => do
            let next := match rest with
              | (value, some .plain) :: _ => some value
              | _ => none
            let taken ←
              (take next (word.length + 1) s spelling attached).mapError ArgumentsExit.usage
            let a ← setAll a taken.settings
            collect a extra taken.usesNext rest
        | _ => collect a (extra ++ [word]) false rest

def read (words : List Text) : Except ArgumentsExit Arguments := do
  let classified ← (classifyAll words).mapError ArgumentsExit.usage
  let (a, extra) ← collect {} [] false classified
  if extra.isEmpty then return a else throw (.usage (.unrecognized extra))

def overrides (a : Arguments) : Options :=
  let text (name : OptionName) (v : Option Text) : Options := match v with
    | some t => [(name, .str t)]
    | none => []
  let flag (name : OptionName) (b : Bool) : Options := if b then [(name, .bool true)] else []
  text .inputPath a.inputPath ++ text .outputPath a.outputPath ++ text .excludeKey a.excludeKey ++
    text .outputMode a.outputMode ++ flag .disableEslintQuotes a.disableEslintQuotes ++
    flag .format a.format ++ flag .noEmit a.noEmit

end Arguments

end LocaleKeys
