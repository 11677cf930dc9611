import LocaleKeys.Locale.Layout

/-!
# Templates

A template is a text with placeholders between braces; a brace that is text is doubled. A
placeholder names an argument, may go on to a part of it, a method or its kind, may ask for the
quoted form, and may end in a layout (`Layout`), in which placeholders may stand in turn. A template
that cannot be used with the given arguments is `unusable`; `Template.fill` then gives it back as it
is.
-/

namespace LocaleKeys

namespace Template

structure Placeholder where
  name : Text
  conversion : Option CodePoint
  layout : Text
deriving DecidableEq, Repr

def openBrace : CodePoint := .scalar '\x7b'

def closeBrace : CodePoint := .scalar '\x7d'

/-- The name of a placeholder, the code point that ends it, and the rest. Between brackets no code
point has a meaning but the closing bracket. -/
def scanName (bracketed : Bool) : Text → Option (Text × CodePoint × Text)
  | [] => none
  | c :: t =>
      let further (bracketed : Bool) : Option (Text × CodePoint × Text) :=
        (scanName bracketed t).map fun (name, rest) => (c :: name, rest)
      if bracketed then further (c ≠ .scalar ']')
      else if c = openBrace then none
      else if c = closeBrace || c = .scalar ':' || c = .scalar '!' then some ([], c, t)
      else further (c = .scalar '[')

/-- A layout up to the brace that closes its placeholder, and the rest. `depth` counts the braces
that are open. -/
def scanLayout (depth : Nat) : Text → Option (Text × Text)
  | [] => none
  | c :: t =>
      let further (depth : Nat) : Option (Text × Text) :=
        (scanLayout depth t).map fun (layout, rest) => (c :: layout, rest)
      if c = openBrace then further (depth + 1)
      else if c = closeBrace then
        match depth with
        | 0 => some ([], t)
        | depth + 1 => further depth
      else further depth

def scan (t : Text) : Option (Placeholder × Text) := do
  let (name, stop, rest) ← scanName false t
  let layout (conversion : Option CodePoint) (rest : Text) : Option (Placeholder × Text) :=
    (scanLayout 0 rest).map fun (layout, rest) => (⟨name, conversion, layout⟩, rest)
  if stop = closeBrace then return (⟨name, none, []⟩, rest)
  else if stop = .scalar ':' then layout none rest
  else
    match rest with
    | [] => none
    | [_] => none
    | conversion :: c :: rest =>
        if c = closeBrace then return (⟨name, some conversion, []⟩, rest)
        else if c = .scalar ':' then layout (some conversion) rest
        else none

/-- A step from a value to a part of it. -/
inductive Step where
  | attribute (name : Text)
  | index (n : Nat)
  | item (name : Text)
deriving DecidableEq, Repr

/-- The number that a text of digits stands for, after digits that stand for `n`; none if the text
holds anything else. A number is refused as soon as it is too large, whatever follows. -/
def indexFrom (n : Nat) : Text → Except TemplateFault (Option Nat)
  | [] => .ok (some n)
  | c :: t =>
      match c.decimal? with
      | none => .ok none
      | some d =>
          if Layout.limit < n * 10 + d then .error .unusable else indexFrom (n * 10 + d) t

def index? (t : Text) : Except TemplateFault (Option Nat) :=
  if t.isEmpty then .ok none else indexFrom 0 t

def itemStep (t : Text) : Except TemplateFault Step :=
  (index? t).map fun
    | some n => .index n
    | none => .item t

def startsStep (c : CodePoint) : Bool := c = .scalar '.' || c = .scalar '['

def Step.read : Text → Except TemplateFault (Step × Text)
  | [] => .error .unusable
  | c :: t =>
      if c = .scalar '.' then
        let name := t.takeWhile (!startsStep ·)
        if name.isEmpty then .error .unusable
        else .ok (.attribute name, t.dropWhile (!startsStep ·))
      else if c = .scalar '[' then
        match Text.cut (.scalar ']') t with
        | (_, none) => .error .unusable
        | ([], some _) => .error .unusable
        | (name, some rest) => (itemStep name).map (·, rest)
      else .error .unusable

/-- What a placeholder leads to: a value, the kind of a value by its name, or a method of a text. -/
inductive Referent where
  | value (v : Value)
  | kind (name : Text)
  | method (owner name : Text)

def numberPart? (name : Text) (v : Value) : Option Value :=
  let whole (n : Int) : Option Value :=
    if name = Text.ofString "real" || name = Text.ofString "numerator" then some (.int n)
    else if name = Text.ofString "imag" then some (.int 0)
    else if name = Text.ofString "denominator" then some (.int 1)
    else none
  match v with
  | .int n => whole n
  | .bool b => whole (if b then 1 else 0)
  | .float x =>
      if name = Text.ofString "real" then some (.float x)
      else if name = Text.ofString "imag" then some (.float (.zero false))
      else none
  | _ => none

def kindAttribute : Text := "__class__"

def kindOfKinds : Text := "type"

def kindOfMethods : Text := "builtin_function_or_method"

/-- The methods that a text finds among its attributes. Those with underscores around their names,
which no text of the program asks for, count as absent. -/
def textMethods : List Text :=
  [("capitalize" : String), "casefold", "center", "count", "encode", "endswith", "expandtabs",
    "find", "format", "format_map", "index", "isalnum", "isalpha", "isascii", "isdecimal",
    "isdigit", "isidentifier", "islower", "isnumeric", "isprintable", "isspace", "istitle",
    "isupper", "join", "ljust", "lower", "lstrip", "maketrans", "partition", "removeprefix",
    "removesuffix", "replace", "rfind", "rindex", "rjust", "rpartition", "rsplit", "rstrip",
    "split", "splitlines", "startswith", "strip", "swapcase", "title", "translate", "upper",
    "zfill"].map Text.ofString

def fault {α : Type} (f : PlaceholderFault) : Except TemplateFault α :=
  .error (.failure (.placeholder f))

def part (v : Value) (step : Step) : Except TemplateFault Referent :=
  let found (r : Option Value) : Except TemplateFault Referent := match r with
    | some v => .ok (.value v)
    | none => .error .unusable
  match step, v with
  | .attribute name, .str t =>
      if name = kindAttribute then .ok (.kind (Value.str t).typeName)
      else if textMethods.contains name then .ok (.method t name)
      else fault (.noAttribute (Value.str t).typeName name)
  | .attribute name, v =>
      if name = kindAttribute then .ok (.kind v.typeName)
      else
        match numberPart? name v with
        | some w => .ok (.value w)
        | none => fault (.noAttribute v.typeName name)
  | .index n, .str t => found (t[n]?.map fun c => .str [c])
  | .index n, .list items => found items[n]?
  | .index n, .dict entries => found ((entries.find? (Value.sameKey ·.1 (.int n))).map (·.2))
  | .item name, .dict entries => found ((entries.find? (Value.sameKey ·.1 (.str name))).map (·.2))
  | .item _, .str t => fault (.textIndex (Value.str t).typeName)
  | .item _, .list items => fault (.textIndex (Value.list items).typeName)
  | _, v => fault (.notSubscriptable v.typeName)

/-- The part of a kind that a step leads to: its names, the part of the program it belongs to, or
the kind of all kinds. -/
def partOfKind (kind : Text) : Step → Except TemplateFault Referent
  | .attribute name =>
      if name = kindAttribute then .ok (.kind kindOfKinds)
      else if name = Text.ofString "__name__" || name = Text.ofString "__qualname__" then
        .ok (.value (.str kind))
      else if name = Text.ofString "__module__" then .ok (.value (.str "builtins"))
      else fault (.kindNoAttribute kind name)
  | .index _ => fault (.kindNotSubscriptable kind)
  | .item _ => fault (.kindNotSubscriptable kind)

def partOfMethod (owner method : Text) : Step → Except TemplateFault Referent
  | .attribute name =>
      if name = kindAttribute then .ok (.kind kindOfMethods)
      else if name = Text.ofString "__name__" then .ok (.value (.str method))
      else if name = Text.ofString "__self__" then .ok (.value (.str owner))
      else fault (.noAttribute kindOfMethods name)
  | .index _ => fault (.notSubscriptable kindOfMethods)
  | .item _ => fault (.notSubscriptable kindOfMethods)

def Referent.part (r : Referent) (step : Step) : Except TemplateFault Referent :=
  match r with
  | .value v => Template.part v step
  | .kind name => partOfKind name step
  | .method owner name => partOfMethod owner name step

/-- Goes on from a value or kind as a text says, one step after the other; `fuel` is at least the
length of the text. -/
def follow (r : Referent) : (fuel : Nat) → Text → Except TemplateFault Referent
  | _, [] => .ok r
  | 0, _ => .error .unusable
  | fuel + 1, t => do
      let (step, rest) ← Step.read t
      follow (← r.part step) fuel rest

abbrev Arguments := List (Text × Value)

def resolve (arguments : Arguments) (name : Text) : Except TemplateFault Referent := do
  let first := name.takeWhile (!startsStep ·)
  let rest := name.dropWhile (!startsStep ·)
  if first.isEmpty || (← index? first).isSome then throw .unusable
  match arguments.lookup first with
  | none => throw .unusable
  | some v => follow (.value v) rest.length rest

namespace Referent

/-- A method is shown without the place of its text in memory, which nobody knows beforehand. -/
def shown : Referent → Text
  | value v => v.shown
  | kind name => "<class '" ++ name ++ "'>"
  | method _ name => "<built-in method " ++ name ++ " of str object>"

def text : Referent → Text
  | value v => v.text
  | r => r.shown

def convert (conversion : Option CodePoint) (r : Referent) : Except TemplateFault Referent :=
  match conversion with
  | none => .ok r
  | some c =>
      if c = .scalar 'r' then .ok (value (.str r.shown))
      else if c = .scalar 's' then .ok (value (.str r.text))
      else if c = .scalar 'a' then .ok (value (.str (Text.asciiEscaped r.shown)))
      else .error .unusable

def laidOut (layout : Text) : Referent → Except TemplateFault Text
  | value v => Layout.value layout v
  | kind name =>
      if layout.isEmpty then .ok (kind name).shown
      else fault (.formatNotSupported kindOfKinds)
  | method owner name =>
      if layout.isEmpty then .ok (method owner name).shown
      else fault (.formatNotSupported kindOfMethods)

end Referent

def expandWith (inner : Text → Except TemplateFault Text) (arguments : Arguments) :
    (fuel : Nat) → Text → Except TemplateFault Text
  | _, [] => .ok []
  | 0, _ => .ok []
  | fuel + 1, c :: t =>
      if c = openBrace then
        if t.head? = some openBrace then
          (expandWith inner arguments fuel (t.drop 1)).map (openBrace :: ·)
        else
          match scan t with
          | none => .error .unusable
          | some (p, rest) => do
              let r ← (← resolve arguments p.name).convert p.conversion
              let layout ← if p.layout.contains openBrace then inner p.layout else .ok p.layout
              let shown ← r.laidOut layout
              return shown ++ (← expandWith inner arguments fuel rest)
      else if c = closeBrace then
        if t.head? = some closeBrace then
          (expandWith inner arguments fuel (t.drop 1)).map (closeBrace :: ·)
        else .error .unusable
      else (expandWith inner arguments fuel t).map (c :: ·)

def expand (arguments : Arguments) : (depth : Nat) → Text → Except TemplateFault Text
  | 0, _ => .error .unusable
  | depth + 1, t => expandWith (expand arguments depth) arguments t.length t

/-- How deep placeholders may stand in the layouts of others. -/
def nesting : Nat := 2

/-- A template with its placeholders filled in. Without arguments, and when it cannot be used with
them, it is given back as it is. -/
def fill (arguments : Arguments) (template : Text) : Except Failure Text :=
  if arguments.isEmpty then .ok template
  else
    match expand arguments nesting template with
    | .ok t => .ok t
    | .error .unusable => .ok template
    | .error (.failure f) => .error f

end Template

end LocaleKeys
