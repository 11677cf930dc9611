import LocaleKeys.Json.Basic

/-!
# Reading JSON

`Json.read` reads a whole document. Blanks are the space, the tab and the two line end characters.
Beyond the standard grammar it accepts the numbers `NaN`, `Infinity` and `-Infinity`. Escaped
surrogates that form a pair are one character, all others stay alone.

Every function works on what is left of the document, and a mistake carries what is left from its
place on; `Place.of` turns that into a line, a column and an offset, which count characters.

How deep a document may nest is not limited here. A reader whose calls have a stack of a bounded
size gives up on a document that nests too deeply, with a failure that nothing handles; none of the
failures here stands for that.
-/

namespace LocaleKeys

namespace Json

inductive Mistake where
  | value
  | name
  | colon
  | comma
  | extra
  | unterminated
  | control
  | escape
  | unicodeEscape
  | byteOrderMark
deriving DecidableEq, Repr

def Mistake.message : Mistake → Text
  | value => "Expecting value"
  | name => "Expecting property name enclosed in double quotes"
  | colon => "Expecting ':' delimiter"
  | comma => "Expecting ',' delimiter"
  | extra => "Extra data"
  | unterminated => "Unterminated string starting at"
  | control => "Invalid control character at"
  | escape => "Invalid \\escape"
  | unicodeEscape => "Invalid \\uXXXX escape"
  | byteOrderMark => "Unexpected UTF-8 BOM (decode using utf-8-sig)"

/-- Why a document cannot be read: a mistake and what is left of the document from its place on, or
an integer with too many digits. -/
inductive Stop where
  | mistake (m : Mistake) (rest : List Char)
  | digits (count : Nat)
deriving DecidableEq, Repr

def isBlank (c : Char) : Bool := c = ' ' || c = '\t' || c = '\n' || c = '\r'

def skip (cs : List Char) : List Char := cs.dropWhile isBlank

def shortEscape? : Char → Option Char
  | '"' => some '"'
  | '\\' => some '\\'
  | '/' => some '/'
  | 'b' => some '\x08'
  | 'f' => some '\x0c'
  | 'n' => some '\n'
  | 'r' => some '\r'
  | 't' => some '\t'
  | _ => none

def unit? (a b c d : Char) : Option Nat := do
  let a ← Char.digitValue? a
  let b ← Char.digitValue? b
  let c ← Char.digitValue? c
  let d ← Char.digitValue? d
  return ((a * 16 + b) * 16 + c) * 16 + d

/-- A 16-bit unit in front of a text. A high surrogate forms one character with a low one that
follows. -/
def consUnit (u : Nat) (t : Text) : Text :=
  match CodePoint.ofNat? u, t with
  | some (.surrogate h), .surrogate l :: t' =>
      if h.val < 0x400 ∧ 0x400 ≤ l.val then
        .scalar (Char.ofNat (0x10000 + h.val * 0x400 + (l.val - 0x400))) :: t'
      else .surrogate h :: t
  | some c, t => c :: t
  | none, t => t

/-- Reads a string up to its closing quote; `start` is the document from the opening quote on. -/
def string (start : List Char) : List Char → Except Stop (Text × List Char)
  | [] => .error (.mistake .unterminated start)
  | '"' :: r => .ok ([], r)
  | '\\' :: 'u' :: a :: b :: c :: d :: e :: r =>
      match unit? a b c d with
      | some u => (string start (e :: r)).map fun (t, r) => (consUnit u t, r)
      | none => .error (.mistake .unicodeEscape ('u' :: a :: b :: c :: d :: e :: r))
  | '\\' :: 'u' :: r => .error (.mistake .unicodeEscape ('u' :: r))
  | ['\\'] => .error (.mistake .unterminated start)
  | '\\' :: c :: r =>
      match shortEscape? c with
      | some x => (string start r).map fun (t, r) => (.scalar x :: t, r)
      | none => .error (.mistake .escape ('\\' :: c :: r))
  | c :: r =>
      if c < ' ' then .error (.mistake .control (c :: r))
      else (string start r).map fun (t, r) => (.scalar c :: t, r)

def digits (cs : List Char) : List Char × List Char :=
  (cs.takeWhile Char.isDigit, cs.dropWhile Char.isDigit)

def fraction (cs : List Char) : Option (List Char × List Char) :=
  match cs with
  | '.' :: r =>
      match digits r with
      | ([], _) => none
      | (ds, r) => some (ds, r)
  | _ => none

def exponent (cs : List Char) : Option (Int × List Char) :=
  let unsigned (negative : Bool) (r : List Char) : Option (Int × List Char) :=
    match digits r with
    | ([], _) => none
    | (ds, r) =>
        let n : Int := Digits.value 10 ds
        some (if negative then -n else n, r)
  let after (r : List Char) : Option (Int × List Char) :=
    match r with
    | '-' :: r => unsigned true r
    | '+' :: r => unsigned false r
    | r => unsigned false r
  match cs with
  | 'e' :: r => after r
  | 'E' :: r => after r
  | _ => none

/-- The number with the integer digits `ds` in front of `cs`. -/
def numberAfter (negative : Bool) (ds cs : List Char) : Except Stop (Json × List Char) :=
  let (places, afterPoint) := (fraction cs).getD ([], cs)
  let e := exponent afterPoint
  if places.isEmpty && e.isNone then
    if integerDigitLimit < ds.length then .error (.digits ds.length)
    else
      let n : Int := Digits.value 10 ds
      .ok (.int (if negative then -n else n), cs)
  else
    let (e, rest) := e.getD (0, afterPoint)
    .ok (.float (.ofDecimal negative (Digits.value 10 (ds ++ places)) (e - places.length)), rest)

def number (cs : List Char) : Except Stop (Json × List Char) :=
  let (negative, r) := match cs with
    | '-' :: r => (true, r)
    | r => (false, r)
  match r with
  | '0' :: r => numberAfter negative ['0'] r
  | r =>
      match digits r with
      | ([], _) => .error (.mistake .value cs)
      | (ds, r) => numberAfter negative ds r

mutual

/-- Reads a value; `fuel` bounds the steps; two for every character of the document are enough. -/
def value : (fuel : Nat) → List Char → Except Stop (Json × List Char)
  | 0, cs => .error (.mistake .value cs)
  | fuel + 1, cs =>
      match cs with
      | '"' :: r => (string cs r).map fun (t, r) => (.str t, r)
      | '\x7b' :: r =>
          match skip r with
          | '\x7d' :: r => .ok (.obj [], r)
          | r => (members fuel [] r).map fun (ms, r) => (.obj ms, r)
      | '[' :: r =>
          match skip r with
          | ']' :: r => .ok (.arr [], r)
          | r => (elements fuel r).map fun (vs, r) => (.arr vs, r)
      | 'n' :: 'u' :: 'l' :: 'l' :: r => .ok (.null, r)
      | 't' :: 'r' :: 'u' :: 'e' :: r => .ok (.bool true, r)
      | 'f' :: 'a' :: 'l' :: 's' :: 'e' :: r => .ok (.bool false, r)
      | 'N' :: 'a' :: 'N' :: r => .ok (.float .nan, r)
      | 'I' :: 'n' :: 'f' :: 'i' :: 'n' :: 'i' :: 't' :: 'y' :: r =>
          .ok (.float (.infinity false), r)
      | '-' :: 'I' :: 'n' :: 'f' :: 'i' :: 'n' :: 'i' :: 't' :: 'y' :: r =>
          .ok (.float (.infinity true), r)
      | cs => number cs

def members : (fuel : Nat) → (done : List (Text × Json)) → List Char →
    Except Stop (List (Text × Json) × List Char)
  | 0, _, cs => .error (.mistake .name cs)
  | fuel + 1, done, cs =>
      match cs with
      | '"' :: r => do
          let (key, r) ← string cs r
          match skip r with
          | ':' :: r => do
              let (v, r) ← value fuel (skip r)
              let done := put key v done
              match skip r with
              | '\x7d' :: r => .ok (done, r)
              | ',' :: r => members fuel done (skip r)
              | r => .error (.mistake .comma r)
          | r => .error (.mistake .colon r)
      | cs => .error (.mistake .name cs)

def elements : (fuel : Nat) → List Char → Except Stop (List Json × List Char)
  | 0, cs => .error (.mistake .value cs)
  | fuel + 1, cs => do
      let (v, r) ← value fuel cs
      match skip r with
      | ']' :: r => .ok ([v], r)
      | ',' :: r => (elements fuel (skip r)).map fun (vs, r) => (v :: vs, r)
      | r => .error (.mistake .comma r)

end

def readAll (doc : List Char) : Except Stop Json :=
  match doc with
  | '\uFEFF' :: _ => .error (.mistake .byteOrderMark doc)
  | _ => do
      let (v, r) ← value (2 * doc.length + 2) (skip doc)
      match skip r with
      | [] => .ok v
      | r => .error (.mistake .extra r)

/-- A place in a document: lines and columns count from one, the offset from zero. -/
structure Place where
  line : Nat
  column : Nat
  offset : Nat
deriving DecidableEq, Repr

def Place.of (doc rest : List Char) : Place :=
  let offset := doc.length - rest.length
  let before := doc.take offset
  { line := before.count '\n' + 1
    column := (before.reverse.takeWhile (· ≠ '\n')).length + 1
    offset }

/-- Why a document cannot be read. -/
inductive ReadFault where
  | syntaxError (m : Mistake) (place : Place)
  | tooManyDigits (count : Nat)
deriving DecidableEq, Repr

def Mistake.describe (m : Mistake) (p : Place) : Text :=
  m.message ++ ": line " ++ Text.ofNat p.line ++ " column " ++ Text.ofNat p.column ++
    " (char " ++ Text.ofNat p.offset ++ ")"

def read (doc : List Char) : Except ReadFault Json :=
  match readAll doc with
  | .ok v => .ok v
  | .error (.mistake m rest) => .error (.syntaxError m (Place.of doc rest))
  | .error (.digits n) => .error (.tooManyDigits n)

end Json

end LocaleKeys
