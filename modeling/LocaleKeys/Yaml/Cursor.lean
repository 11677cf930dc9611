import LocaleKeys.Yaml.Source

/-!
# A place in a YAML document

What is left of the document, how far the place is from its beginning, and line and column, which
decide where blocks begin and end. The end of the document counts as a character of its own in the
classes below, so that a class holds of `none` where the end may stand.
-/

namespace LocaleKeys

namespace Yaml

/-- A line end of any kind; carriage returns do not occur, since line ends are unified before. -/
def isBreak (c : Char) : Bool := c = '\n' || c = '\u0085' || c = '\u2028' || c = '\u2029'

def isBreakOrEnd : Option Char → Bool
  | none => true
  | some c => isBreak c

def isSpaceBreakOrEnd : Option Char → Bool
  | none => true
  | some c => c = ' ' || isBreak c

def isBlankBreakOrEnd : Option Char → Bool
  | none => true
  | some c => c = ' ' || c = '\t' || isBreak c

/-- `stop` says why the characters end early, if they do. -/
structure Cursor where
  rest : List Char
  stop : Option Stop
  index : Nat
  line : Nat
  column : Nat
deriving Repr

namespace Cursor

def start (s : Source) : Cursor := ⟨s.chars, s.stop, 0, 0, 0⟩

def stop? (c : Cursor) : Option Stop := if c.rest.isEmpty then c.stop else none

def peek (c : Cursor) (n : Nat) : Option Char := c.rest[n]?

def next (c : Cursor) : Option Char := c.rest.head?

def step (c : Cursor) : Cursor :=
  match c.rest with
  | [] => c
  | x :: rest =>
      if isBreak x then { c with rest, index := c.index + 1, line := c.line + 1, column := 0 }
      else
        let column := if x = '\uFEFF' then c.column else c.column + 1
        { c with rest, index := c.index + 1, column }

def advance (c : Cursor) : Nat → Cursor
  | 0 => c
  | n + 1 => advance c.step n

def count (c : Cursor) (p : Char → Bool) : Nat := (c.rest.takeWhile p).length

def span (c : Cursor) (p : Char → Bool) : List Char × Cursor :=
  (c.rest.takeWhile p, c.advance (c.count p))

def skip (c : Cursor) (p : Char → Bool) : Cursor := c.advance (c.count p)

/-- The line end that stands here, if there is one, and the place after it. All but two kinds of
line end are the same one. -/
def takeBreak (c : Cursor) : List Char × Cursor :=
  match c.next with
  | some '\u2028' => (['\u2028'], c.step)
  | some '\u2029' => (['\u2029'], c.step)
  | some x => if isBreak x then (['\n'], c.step) else ([], c)
  | none => ([], c)

def isMarker (c : Cursor) (mark : Char) : Bool :=
  c.peek 0 = some mark && c.peek 1 = some mark && c.peek 2 = some mark &&
    isBlankBreakOrEnd (c.peek 3)

def isDocumentMarker (c : Cursor) : Bool := c.isMarker '-' || c.isMarker '.'

end Cursor

end Yaml

end LocaleKeys
