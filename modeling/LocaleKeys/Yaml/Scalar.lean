import LocaleKeys.Yaml.Cursor
import LocaleKeys.Yaml.Fault

/-!
# The text of a scalar

Scalars are written between quotes, as a block of lines after `|` or `>`, or plainly. In quoted and
plain scalars a line end with the blanks around it is one space, and further line ends stay; in a
block after `>` a line end between two lines that do not begin with a blank is one space.
-/

namespace LocaleKeys

namespace Yaml

namespace Scalar

def scanFault (c : Cursor) (what : Text) : Stop := .fault (.token c.line what)

def endFault (c : Cursor) (what : Text) : Stop := c.stop.getD (scanFault c what)

def isBlank (x : Char) : Bool := x = ' ' || x = '\t'

/-- A line end followed by `breaks` further ones, folded. -/
def fold (lineEnd breaks : List Char) : List Char :=
  if lineEnd ≠ ['\n'] then lineEnd ++ breaks
  else if breaks.isEmpty then [' ']
  else breaks

/-! ## Quoted scalars -/

def quotedBreaks : (fuel : Nat) → Cursor → Except Stop (List Char × Cursor)
  | 0, c => .error (endFault c "found unexpected end of stream")
  | fuel + 1, c =>
      if c.isDocumentMarker then .error (scanFault c "found unexpected document separator")
      else
        let c := c.skip isBlank
        match c.takeBreak with
        | ([], c) => .ok ([], c)
        | (b, c) => (quotedBreaks fuel c).map fun (bs, c) => (b ++ bs, c)

def shortEscape? : Char → Option Char
  | '0' => some '\x00'
  | 'a' => some '\x07'
  | 'b' => some '\x08'
  | 't' => some '\t'
  | '\t' => some '\t'
  | 'n' => some '\n'
  | 'v' => some '\x0b'
  | 'f' => some '\x0c'
  | 'r' => some '\r'
  | 'e' => some '\x1b'
  | ' ' => some ' '
  | '"' => some '"'
  | '\\' => some '\\'
  | '/' => some '/'
  | 'N' => some '\u0085'
  | '_' => some '\u00a0'
  | 'L' => some '\u2028'
  | 'P' => some '\u2029'
  | _ => none

def codeLength? : Char → Option Nat
  | 'x' => some 2
  | 'u' => some 4
  | 'U' => some 8
  | _ => none

def codePointLimit : Nat := 0x80000000

def escape (fuel : Nat) (c : Cursor) : Except Stop (Text × Cursor) :=
  match c.next with
  | none => .error (endFault c "found unexpected end of stream")
  | some x =>
      match shortEscape? x, codeLength? x with
      | some y, _ => .ok ([.scalar y], c.step)
      | none, some n =>
          let after := c.step.rest.take n
          let ds := after.takeWhile (Digits.isDigitOf 16)
          let number := Digits.value 16 ds
          if ds.length < n then
            let what := Text.ofString "expected hexadecimal digits in an escape sequence"
            .error (if after.length = ds.length then endFault c what else scanFault c what)
          else if codePointLimit ≤ number then .error .codePointNumber
          else
            match CodePoint.ofNat? number with
            | some p => .ok ([p], c.step.advance n)
            | none => .error (.value .codePoint)
      | none, none =>
          if isBreak x then
            (quotedBreaks fuel c.takeBreak.2).map fun (bs, c) => (Text.ofChars bs, c)
          else .error (scanFault c "found unknown escape character")

def quotedSpace (fuel : Nat) (c : Cursor) : Except Stop (List Char × Cursor) :=
  let (blanks, c) := c.span isBlank
  match c.next, c.takeBreak with
  | none, _ => .error (endFault c "found unexpected end of stream")
  | some _, ([], c) => .ok (blanks, c)
  | some _, (b, c) => (quotedBreaks fuel c).map fun (bs, c) => (fold b bs, c)

def quotedBody (double : Bool) : (fuel : Nat) → Cursor → Except Stop (Text × Cursor)
  | 0, c => .error (endFault c "found unexpected end of stream")
  | fuel + 1, c =>
      match c.next with
      | none => .error (endFault c "found unexpected end of stream")
      | some x =>
          if x = (if double then '"' else '\'') then
            if !double && c.peek 1 = some '\'' then
              (quotedBody double fuel (c.advance 2)).map fun (t, c) => (.scalar '\'' :: t, c)
            else .ok ([], c.step)
          else if double && x = '\\' then do
            let (s, c) ← escape fuel c.step
            let (t, c) ← quotedBody double fuel c
            return (s ++ t, c)
          else if isBlank x || isBreak x then do
            let (s, c) ← quotedSpace fuel c
            let (t, c) ← quotedBody double fuel c
            return (Text.ofChars s ++ t, c)
          else (quotedBody double fuel c.step).map fun (t, c) => (.scalar x :: t, c)

def quoted (double : Bool) (c : Cursor) : Except Stop (Text × Cursor) :=
  quotedBody double (c.rest.length + 1) c.step

/-! ## Plain scalars -/

def isFlowMark (x : Char) : Bool := x = ',' || x = '[' || x = ']' || x = '\x7b' || x = '\x7d'

def plainLength (flow : Bool) : List Char → Nat
  | [] => 0
  | x :: r =>
      if isBlankBreakOrEnd (some x) then 0
      else if x = ':' && (isBlankBreakOrEnd r.head? || (flow && r.head?.any isFlowMark)) then 0
      else if flow && (isFlowMark x || x = '?') then 0
      else plainLength flow r + 1

/-- Line ends and spaces, of which only the line ends are kept. Ends early before a document marker,
which it reports. -/
def plainBreaks : (fuel : Nat) → Cursor → List Char × Cursor × Bool
  | 0, c => ([], c, true)
  | fuel + 1, c =>
      if c.isDocumentMarker && c.column = 0 then ([], c, true)
      else
        let c := c.skip (· = ' ')
        match c.takeBreak with
        | ([], c) => ([], c, false)
        | (b, c) =>
            let (bs, c, marker) := plainBreaks fuel c
            (b ++ bs, c, marker)

/-- What stands between two parts of a plain scalar: its folded text, the place after it, whether a
line end is among it, and whether a document marker follows. -/
def plainSpace (c : Cursor) : List Char × Cursor × Bool × Bool :=
  let (blanks, c) := c.span (· = ' ')
  match c.takeBreak with
  | ([], c) => (blanks, c, false, false)
  | (b, c) =>
      let (bs, c, marker) := plainBreaks (c.rest.length + 1) c
      (fold b bs, c, true, marker)

/-- The parts of a plain scalar from `c` on. `before` is the text between the part before and this
one, and `crossed` says whether there was a line end in it. -/
def plainParts (flow : Bool) (indent : Int) :
    (fuel : Nat) → (before : List Char) → (crossed : Bool) → Cursor → List Char × Cursor × Bool
  | 0, _, crossed, c => ([], c, crossed)
  | fuel + 1, before, crossed, c =>
      let n := if c.next = some '#' then 0 else plainLength flow c.rest
      if n = 0 then ([], c, crossed)
      else
        let part := c.rest.take n
        let (space, c, crossed, marker) := plainSpace (c.advance n)
        if space.isEmpty || marker || c.next = some '#' || (!flow && c.column < indent) then
          (before ++ part, c, crossed)
        else
          let (more, c, crossed) := plainParts flow indent fuel space crossed c
          (before ++ part ++ more, c, crossed)

def plain (flow : Bool) (indent : Int) (c : Cursor) : List Char × Cursor × Bool :=
  plainParts flow (indent + 1) (c.rest.length + 1) [] false c

/-! ## Block scalars -/

/-- What becomes of the line ends at the end of a block: all stay, one stays, or none. -/
inductive Chomping where
  | keep
  | clip
  | strip
deriving DecidableEq, Repr

def chompingOf? : Option Char → Option Chomping
  | some '+' => some .keep
  | some '-' => some .strip
  | _ => none

def increment? (c : Cursor) : Except Stop (Option Nat × Cursor) :=
  match c.next with
  | some '0' => .error (scanFault c "expected an indentation indicator from 1 to 9")
  | some x => if x.isDigit then .ok (Char.digitValue? x, c.step) else .ok (none, c)
  | none => .ok (none, c)

def blockHeader (c : Cursor) : Except Stop (Chomping × Option Nat × Cursor) := do
  let (chomping, increment, c) ←
    match chompingOf? c.next with
    | some ch => do
        let (n, c) ← increment? c.step
        pure (ch, n, c)
    | none => do
        let (n, c) ← increment? c
        match n, chompingOf? c.next with
        | some n, some ch => pure (ch, some n, c.step)
        | n, _ => pure (.clip, n, c)
  if !isSpaceBreakOrEnd c.next then
    throw (scanFault c "expected chomping or indentation indicators")
  let c := c.skip (· = ' ')
  let c := if c.next = some '#' then c.skip (!isBreak ·) else c
  if !isBreakOrEnd c.next then throw (scanFault c "expected a comment or a line break")
  return (chomping, increment, c.takeBreak.2)

/-- The empty lines in front of a block whose indentation is not given: their line ends, and the
greatest column that spaces reach. -/
def blockIndentation : (fuel : Nat) → (greatest : Nat) → Cursor → List Char × Nat × Cursor
  | 0, greatest, c => ([], greatest, c)
  | fuel + 1, greatest, c =>
      if c.next = some ' ' then
        let c := c.step
        blockIndentation fuel (max greatest c.column) c
      else
        match c.takeBreak with
        | ([], c) => ([], greatest, c)
        | (b, c) =>
            let (bs, greatest, c) := blockIndentation fuel greatest c
            (b ++ bs, greatest, c)

def skipTo (indent : Nat) (c : Cursor) : Cursor :=
  c.advance (min (c.count (· = ' ')) (indent - c.column))

def blockBreaks (indent : Nat) : (fuel : Nat) → Cursor → List Char × Cursor
  | 0, c => ([], c)
  | fuel + 1, c =>
      match (skipTo indent c).takeBreak with
      | ([], c) => ([], c)
      | (b, c) =>
          let (bs, c) := blockBreaks indent fuel c
          (b ++ bs, c)

/-- The lines of a block: its text up to the last line, the last line end, the line ends after it,
and the place after them. `breaks` are the line ends before the line at `c`. -/
def blockLines (folded : Bool) (indent : Nat) :
    (fuel : Nat) → (breaks : List Char) → Cursor → List Char × List Char × List Char × Cursor
  | 0, breaks, c => ([], [], breaks, c)
  | fuel + 1, breaks, c =>
      if c.column = indent && c.next.isSome then
        let startsBlank := c.next.any isBlank
        let (line, c) := c.span (!isBreak ·)
        let (lineEnd, c) := c.takeBreak
        let (after, c) := blockBreaks indent (c.rest.length + 1) c
        if c.column = indent && c.next.isSome then
          let glue :=
            if folded && lineEnd = ['\n'] && !startsBlank && !c.next.any isBlank then
              if after.isEmpty then [' '] else []
            else lineEnd
          let (text, last, rest, c) := blockLines folded indent fuel after c
          (breaks ++ line ++ glue ++ text, last, rest, c)
        else (breaks ++ line, lineEnd, after, c)
      else ([], [], breaks, c)

def block (folded : Bool) (parent : Int) (c : Cursor) : Except Stop (List Char × Cursor) := do
  let (chomping, increment, c) ← blockHeader c.step
  let least := (max (parent + 1) 1).toNat
  let fuel := c.rest.length + 1
  let (indent, breaks, c) :=
    match increment with
    | some n =>
        let indent := least + n - 1
        let (breaks, c) := blockBreaks indent fuel c
        (indent, breaks, c)
    | none =>
        let (breaks, greatest, c) := blockIndentation fuel 0 c
        (max least greatest, breaks, c)
  let (text, lineEnd, after, c) := blockLines folded indent fuel breaks c
  return match chomping with
    | .strip => (text, c)
    | .clip => (text ++ lineEnd, c)
    | .keep => (text ++ lineEnd ++ after, c)

end Scalar

end Yaml

end LocaleKeys
