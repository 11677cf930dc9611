import LocaleKeys.Yaml.Scalar

/-!
# Tokens of a YAML document

A document becomes a list of tokens in which the beginning and the end of every block stand as
tokens of their own, found from the indentation. A scalar on one line may turn out to be a key only
when the colon behind it is seen; the tokens for the key, and for the mapping that it begins, are
then put in front of it. Where something is wrong the tokens end with the reason, which counts only
if the document makes sense up to there.

Anchors, aliases and tags are not part of the language of option files: `&`, `*` and `!` begin no
token.
-/

namespace LocaleKeys

namespace Yaml

inductive Token where
  | versionDirective (major : Nat)
  | directive
  | documentStart
  | documentEnd
  | blockSequenceStart
  | blockMappingStart
  | blockEnd
  | flowSequenceStart
  | flowSequenceEnd
  | flowMappingStart
  | flowMappingEnd
  | blockEntry
  | flowEntry
  | key
  | value
  | scalar (text : Text) (plain : Bool)
  /-- Reading ends here before the end of the document. -/
  | stop (why : Stop)
deriving DecidableEq, Repr

/-- A place at which a key may have begun: how many tokens stand before it, and whether it has to be
a key. -/
structure PossibleKey where
  before : Nat
  required : Bool
  index : Nat
  line : Nat
  column : Nat
deriving Repr

/-- The state between two tokens. The innermost indentation, minus one outside every block, and
those around it; the number of open brackets; whether a key may begin here; the possible keys by the
number of open brackets around them; and the tokens so far, the last one first. -/
structure Scanner where
  cursor : Cursor
  indent : Int
  outer : List Int
  flow : Nat
  keyAllowed : Bool
  keys : List (Nat × PossibleKey)
  count : Nat
  tokens : List Token

namespace Scanner

def start (source : Source) : Scanner := ⟨Cursor.start source, -1, [], 0, true, [], 0, []⟩

def fail {α : Type} (s : Scanner) (what : Text) : Except Stop α :=
  .error (.fault (.token s.cursor.line what))

def emit (s : Scanner) (t : Token) : Scanner :=
  { s with count := s.count + 1, tokens := t :: s.tokens }

def insertAt (s : Scanner) (n : Nat) (t : Token) : Scanner :=
  let late := s.count - n
  { s with count := s.count + 1, tokens := s.tokens.take late ++ t :: s.tokens.drop late }

def move (s : Scanner) (n : Nat) : Scanner := { s with cursor := s.cursor.advance n }

def keyAt? (s : Scanner) : Option PossibleKey := s.keys.lookup s.flow

def dropKey (s : Scanner) : Scanner := { s with keys := s.keys.filter (·.1 ≠ s.flow) }

def removeKey (s : Scanner) : Except Stop Scanner :=
  match s.keyAt? with
  | some k => if k.required then s.fail "could not find expected ':'" else .ok s.dropKey
  | none => .ok s

/-- A key is on one line and no longer than 1024 characters. -/
def isStale (s : Scanner) (k : PossibleKey) : Bool :=
  k.line ≠ s.cursor.line || k.index + 1024 < s.cursor.index

def removeStaleKeys (s : Scanner) : Except Stop Scanner :=
  if s.keys.any fun (_, k) => s.isStale k && k.required then s.fail "could not find expected ':'"
  else .ok { s with keys := s.keys.filter fun (_, k) => !s.isStale k }

def saveKey (s : Scanner) : Except Stop Scanner :=
  if s.keyAllowed then do
    let s ← s.removeKey
    let k : PossibleKey :=
      { before := s.count
        required := s.flow = 0 && s.indent = s.cursor.column
        index := s.cursor.index
        line := s.cursor.line
        column := s.cursor.column }
    return { s with keys := (s.flow, k) :: s.keys }
  else .ok s

/-- Ends the blocks that are indented further than a column; `outer` are the indentations around the
innermost one. -/
def endBlocks (s : Scanner) (column : Int) : (indent : Int) → (outer : List Int) → Scanner
  | indent, [] => { s with indent, outer := [] }
  | indent, o :: os =>
      if column < indent then (s.emit .blockEnd).endBlocks column o os
      else { s with indent, outer := o :: os }

def unwind (s : Scanner) (column : Int) : Scanner :=
  if s.flow = 0 then s.endBlocks column s.indent s.outer else s

def beginBlock (s : Scanner) (column : Nat) (before : Nat) (t : Token) : Scanner :=
  if s.indent < column then
    { s.insertAt before t with indent := column, outer := s.indent :: s.outer }
  else s

/-- Skips spaces, comments and line ends; a line end outside brackets allows a key. -/
def skipBlank (s : Scanner) : (fuel : Nat) → Scanner
  | 0 => s
  | fuel + 1 =>
      let c := s.cursor.skip (· = ' ')
      let c := if c.next = some '#' then c.skip (!isBreak ·) else c
      match c.takeBreak with
      | ([], c) => { s with cursor := c }
      | (_, c) =>
          let s := { s with cursor := c, keyAllowed := s.keyAllowed || s.flow = 0 }
          s.skipBlank fuel

def skipToToken (s : Scanner) : Scanner :=
  let c := s.cursor
  let c := if c.index = 0 && c.next = some '\uFEFF' then c.step else c
  { s with cursor := c }.skipBlank (c.rest.length + 1)

/-! ## Directives -/

def isNameChar (x : Char) : Bool := x.isAlphanum || x = '-' || x = '_'

def number (s : Scanner) (c : Cursor) : Except Stop (Nat × Cursor) :=
  match c.span Char.isDigit with
  | ([], _) => s.fail "expected a digit"
  | (ds, c) => .ok (Digits.value 10 ds, c)

def directive (s : Scanner) : Except Stop Scanner := do
  let s ← (s.unwind (-1)).removeKey
  let (name, c) := s.cursor.step.span isNameChar
  if name.isEmpty || !isSpaceBreakOrEnd c.next then s.fail "expected a directive name"
  let (t, c) ←
    if name = ['Y', 'A', 'M', 'L'] then do
      let (major, c) ← s.number (c.skip (· = ' '))
      if c.next ≠ some '.' then s.fail "expected a digit or '.'"
      let (_, c) ← s.number c.step
      if !isSpaceBreakOrEnd c.next then s.fail "expected a digit or ' '"
      pure (Token.versionDirective major, c)
    else if name = ['T', 'A', 'G'] then s.fail "tags are not supported"
    else pure (Token.directive, c.skip (!isBreak ·))
  let c := c.skip (· = ' ')
  let c := if c.next = some '#' then c.skip (!isBreak ·) else c
  if !isBreakOrEnd c.next then s.fail "expected a comment or a line break"
  return { s with cursor := c.takeBreak.2, keyAllowed := false }.emit t

/-! ## The kinds of tokens -/

def marker (s : Scanner) (t : Token) : Except Stop Scanner := do
  let s ← (s.unwind (-1)).removeKey
  return { s.move 3 with keyAllowed := false }.emit t

def openFlow (s : Scanner) (t : Token) : Except Stop Scanner := do
  let s ← s.saveKey
  return { s.move 1 with flow := s.flow + 1, keyAllowed := true }.emit t

def closeFlow (s : Scanner) (t : Token) : Except Stop Scanner := do
  if s.flow = 0 then s.fail "found an unmatched closing bracket"
  let s ← s.removeKey
  return { s.move 1 with flow := s.flow - 1, keyAllowed := false }.emit t

def flowEntry (s : Scanner) : Except Stop Scanner := do
  let s ← s.removeKey
  return { s.move 1 with keyAllowed := true }.emit .flowEntry

def blockEntry (s : Scanner) : Except Stop Scanner := do
  if s.flow = 0 && !s.keyAllowed then s.fail "sequence entries are not allowed here"
  let s := if s.flow = 0 then s.beginBlock s.cursor.column s.count .blockSequenceStart else s
  let s ← s.removeKey
  return { s.move 1 with keyAllowed := true }.emit .blockEntry

def explicitKey (s : Scanner) : Except Stop Scanner := do
  if s.flow = 0 && !s.keyAllowed then s.fail "mapping keys are not allowed here"
  let s := if s.flow = 0 then s.beginBlock s.cursor.column s.count .blockMappingStart else s
  let s ← s.removeKey
  return { s.move 1 with keyAllowed := s.flow = 0 }.emit .key

def value (s : Scanner) : Except Stop Scanner := do
  match s.keyAt? with
  | some k =>
      let s := s.dropKey.insertAt k.before .key
      let s := if s.flow = 0 then s.beginBlock k.column k.before .blockMappingStart else s
      return { s.move 1 with keyAllowed := false }.emit .value
  | none =>
      if s.flow = 0 && !s.keyAllowed then s.fail "mapping values are not allowed here"
      let s := if s.flow = 0 then s.beginBlock s.cursor.column s.count .blockMappingStart else s
      let s ← s.removeKey
      return { s.move 1 with keyAllowed := s.flow = 0 }.emit .value

def blockScalar (s : Scanner) (folded : Bool) : Except Stop Scanner := do
  let s ← s.removeKey
  let (text, c) ← Scalar.block folded s.indent s.cursor
  return { s with cursor := c, keyAllowed := true }.emit (.scalar (Text.ofChars text) false)

def quotedScalar (s : Scanner) (double : Bool) : Except Stop Scanner := do
  let s ← s.saveKey
  let (text, c) ← Scalar.quoted double s.cursor
  return { s with cursor := c, keyAllowed := false }.emit (.scalar text false)

def plainScalar (s : Scanner) : Except Stop Scanner := do
  let s ← s.saveKey
  let (text, c, crossed) := Scalar.plain (s.flow ≠ 0) s.indent s.cursor
  return { s with cursor := c, keyAllowed := crossed }.emit (.scalar (Text.ofChars text) true)

/-- The characters that begin a plain scalar only before certain others, or never. -/
def indicators : List Char :=
  ['-', '?', ':', ',', '[', ']', '\x7b', '\x7d', '#', '&', '*', '!', '|', '>', '\'', '"', '%', '@',
    '\x60']

def beginsPlain (x : Char) : Bool := !isBlankBreakOrEnd (some x) && !indicators.contains x

def tokenAt (s : Scanner) (x : Char) : Except Stop Scanner :=
  let c := s.cursor
  let atBlank := isBlankBreakOrEnd (c.peek 1)
  let lineStart := c.column = 0
  if x = '%' && lineStart then s.directive
  else if lineStart && c.isMarker '-' then s.marker .documentStart
  else if lineStart && c.isMarker '.' then s.marker .documentEnd
  else if x = '[' then s.openFlow .flowSequenceStart
  else if x = '\x7b' then s.openFlow .flowMappingStart
  else if x = ']' then s.closeFlow .flowSequenceEnd
  else if x = '\x7d' then s.closeFlow .flowMappingEnd
  else if x = ',' then s.flowEntry
  else if x = '-' && atBlank then s.blockEntry
  else if x = '?' && (s.flow ≠ 0 || atBlank) then s.explicitKey
  else if x = ':' && (s.flow ≠ 0 || atBlank) then s.value
  else if x = '|' && s.flow = 0 then s.blockScalar false
  else if x = '>' && s.flow = 0 then s.blockScalar true
  else if x = '\'' then s.quotedScalar false
  else if x = '"' then s.quotedScalar true
  else if beginsPlain x || (!atBlank && (x = '-' || (s.flow = 0 && (x = '?' || x = ':')))) then
    s.plainScalar
  else s.fail "found a character that cannot start any token"

def finish (s : Scanner) : Except Stop Scanner := (s.unwind (-1)).removeKey

/-- Reads the next token with those that come in front of it, and says whether the document goes on.
-/
def fetch (s : Scanner) : Except Stop (Scanner × Bool) := do
  let s ← s.skipToToken.removeStaleKeys
  let s := s.unwind s.cursor.column
  match s.cursor.next, s.cursor.stop with
  | none, some why => throw why
  | none, none => return (← s.finish, false)
  | some x, _ => do
      let s ← s.tokenAt x
      match s.cursor.stop? with
      | some why => throw why
      | none => return (s, true)

/-- How many of the tokens cannot change any more: those in front of every place at which a key may
have begun. -/
def settled (s : Scanner) : Nat :=
  (s.keys.filter fun (_, k) => !s.isStale k).foldl (fun n (_, k) => min n k.before) s.count

/-- The tokens up to the end of the document. If reading stops, the tokens that are settled until
then stand before the stop. -/
def run (s : Scanner) : (fuel : Nat) → List Token
  | 0 => s.tokens.reverse
  | fuel + 1 =>
      match s.fetch with
      | .error why => s.tokens.reverse.take s.settled ++ [.stop why]
      | .ok (s, true) => s.run fuel
      | .ok (s, false) => s.tokens.reverse

end Scanner

def Token.scan (source : Source) : List Token :=
  (Scanner.start source).run (source.chars.length + 1)

end Yaml

end LocaleKeys
