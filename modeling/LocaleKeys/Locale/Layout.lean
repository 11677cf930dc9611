import LocaleKeys.Config.Value
import LocaleKeys.Failure
import LocaleKeys.Number.Rounding
import LocaleKeys.Text.DecimalDigit
import LocaleKeys.Text.Fold

/-!
# Layout of a value

What follows the colon of a placeholder says how its value is laid out: fill and alignment, sign,
width, separators between groups of digits, precision, and the kind of number. `Layout.read` reads
that, and `Layout.value` lays a value out; a layout that does not fit the value is refused as
`unusable`.
-/

namespace LocaleKeys

/-- Why a template gives no text: it cannot be used with these arguments, or a value fails. -/
inductive TemplateFault where
  | unusable
  | failure (f : Failure)
deriving DecidableEq, Repr

inductive Alignment where
  | left
  | right
  | centre
  | inside
deriving DecidableEq, Repr

structure Layout where
  fill : CodePoint := ' '
  align : Option Alignment := none
  sign : Option CodePoint := none
  unsignedZero : Bool := false
  alternate : Bool := false
  width : Nat := 0
  separator : Option CodePoint := none
  precision : Option Nat := none
  kind : Option CodePoint := none

namespace Layout

def alignment? (c : CodePoint) : Option Alignment :=
  [((CodePoint.scalar '<'), Alignment.left), (.scalar '>', .right), (.scalar '^', .centre),
    (.scalar '=', .inside)].lookup c

def number? (t : Text) : Option Nat × Text :=
  let ds := t.takeWhile CodePoint.isDecimal
  (if ds.isEmpty then none else some (Text.decimalValue ds), t.dropWhile CodePoint.isDecimal)

def flag (c : CodePoint) (t : Text) : Bool × Text :=
  match t with
  | d :: r => if d = c then (true, r) else (false, t)
  | [] => (false, [])

def limit : Nat := 0x7FFFFFFFFFFFFFFF

/-- The largest width of a text, and the most digits behind the point of a number. -/
def capacity : Nat := 0x7FFFFFFF

def readAlignment (t : Text) : Option CodePoint × Option Alignment × Text :=
  match t with
  | f :: a :: r =>
      match alignment? a with
      | some align => (some f, some align, r)
      | none =>
          match alignment? f with
          | some align => (none, some align, a :: r)
          | none => (none, none, t)
  | [a] =>
      match alignment? a with
      | some align => (none, some align, [])
      | none => (none, none, t)
  | [] => (none, none, [])

/-- Whether groups of digits may be separated in a number of a kind, and how many digits a group
has. -/
def groupSize? (separator : CodePoint) (kind : Option CodePoint) : Option Nat :=
  match kind with
  | none => some 3
  | some k =>
      if (Text.ofString "defgEG%F").contains k then some 3
      else if separator = .scalar '_' && (Text.ofString "boxX").contains k then some 4
      else none

/-- Reads a layout. `numeric` says whether zeros in front of the width go between the sign and the
digits. -/
def read (numeric : Bool) (t : Text) : Option Layout := do
  let (fill, align, t) := readAlignment t
  let (sign, t) := match t with
    | c :: r =>
        if c = .scalar ' ' ∨ c = .scalar '+' ∨ c = .scalar '-' then (some c, r) else (none, t)
    | [] => (none, [])
  let (unsignedZero, t) := flag 'z' t
  let (alternate, t) := flag '#' t
  let (zeros, t) := if fill.isSome then (false, t) else flag '0' t
  let (width, t) := number? t
  let (comma, t) := flag ',' t
  let (underscore, t) := flag '_' t
  if comma && underscore then none
  if underscore && (flag ',' t).1 then none
  let (point, t) := flag '.' t
  let (precision, t) := if point then number? t else (none, t)
  if point && precision.isNone then none
  if limit < width.getD 0 || limit < precision.getD 0 then none
  let kind ← match t with
    | [] => some none
    | [k] => some (some k)
    | _ => none
  return {
    fill := fill.getD (if zeros then '0' else ' ')
    align := if zeros && numeric && align.isNone then some .inside else align
    sign, unsignedZero, alternate
    width := width.getD 0
    separator := if comma then some ',' else if underscore then some '_' else none
    precision, kind }

def checkWidth (l : Layout) : Except TemplateFault Unit :=
  if capacity < l.width then .error (.failure (.range .width)) else .ok ()

/-- A text with as much filling as its width asks for, in front of what stands `inside` the
alignment. -/
def pad (l : Layout) (default : Alignment) (lead body : Text) : Text :=
  let n := l.width - (lead.length + body.length)
  match l.align.getD default with
  | .left => lead ++ body ++ Text.fill n l.fill
  | .right => Text.fill n l.fill ++ lead ++ body
  | .centre => Text.fill (n / 2) l.fill ++ lead ++ body ++ Text.fill (n - n / 2) l.fill
  | .inside => lead ++ Text.fill n l.fill ++ body

def text (l : Layout) (t : Text) : Except TemplateFault Text := do
  if l.kind.getD 's' ≠ .scalar 's' || l.sign.isSome || l.unsignedZero || l.alternate ||
      l.align = some .inside || l.separator.isSome then
    throw .unusable
  l.checkWidth
  let t := match l.precision with
    | some n => t.take n
    | none => t
  return l.pad .left [] t

/-- The least count of digits, from `n` on, that takes `width` places with a separator after every
`size` digits from the right. -/
def digitsFor (size width : Nat) : (fuel n : Nat) → Nat
  | 0, n => n
  | fuel + 1, n => if width ≤ n + (n - 1) / size then n else digitsFor size width fuel (n + 1)

def grouped (separator : CodePoint) (size : Nat) (ds : Text) : Text :=
  (ds.foldr (fun c (n, t) =>
    (n + 1, if n ≠ 0 && n % size = 0 then c :: separator :: t else c :: t))
    ((0, []) : Nat × Text)).2

/-- The layout of a number with its sign, what stands in front of the digits, the digits before the
point, and the rest. -/
def numeral (l : Layout) (negative : Bool) (base whole rest : Text) :
    Except TemplateFault Text := do
  let size ← match l.separator with
    | none => pure 0
    | some c =>
        match groupSize? c l.kind with
        | none => throw .unusable
        | some size => pure size
  l.checkWidth
  let sign : Text :=
    if negative then "-"
    else match l.sign with
      | some c => if c = .scalar '-' then [] else [c]
      | none => []
  let lead := sign ++ base
  let least :=
    if l.fill = .scalar '0' && l.align = some .inside then l.width - (lead.length + rest.length)
    else 0
  match l.separator with
  | none => return l.pad .right lead (whole ++ rest)
  | some c =>
      let n := if whole.isEmpty then 0 else digitsFor size least least whole.length
      let whole := Text.fill (n - whole.length) '0' ++ whole
      return l.pad .right lead (grouped c size whole ++ rest)

def isUpperKind (kind : Option CodePoint) : Bool :=
  match kind with
  | some k => (Text.ofString "EFGX").contains k
  | none => false

def afterPoint (alternate : Bool) (ds : List Char) : List Char :=
  if ds.isEmpty && !alternate then [] else '.' :: ds

def scientific (alternate : Bool) (d : Binary64.Decimal) : List Char × List Char :=
  (d.digits.take 1,
    afterPoint alternate (d.digits.drop 1) ++ 'e' :: Binary64.exponentText (d.point - 1))

/-- A finite number with `count` significant digits, with an exponent if the point is far away.
`leastOne` keeps one digit after the point. -/
def general (alternate leastOne : Bool) (count m : Nat) (q : Int) : List Char × List Char :=
  let d := Binary64.significant m q (max count 1)
  let stripped := (d.digits.reverse.dropWhile (· = '0')).reverse
  let ds := if alternate then d.digits else stripped
  if d.point ≤ -4 || (max count 1 : Int) - (if leastOne then 1 else 0) < d.point then
    scientific alternate ⟨if ds.isEmpty then ['0'] else ds, d.point⟩
  else
    let ds := List.replicate (1 - d.point).toNat '0' ++ ds
    let whole := max d.point.toNat 1
    let ds := ds ++ List.replicate (whole - ds.length) '0'
    let fraction := ds.drop whole
    (ds.take whole,
      if fraction.isEmpty && leastOne then ['.', '0'] else afterPoint alternate fraction)

def finite (l : Layout) (m : Nat) (q : Int) : Option (List Char × List Char) :=
  let precision := l.precision.getD 6
  match l.kind with
  | none =>
      match l.precision with
      | some p => some (general l.alternate true p m q)
      | none =>
          let ds := if m = 0 then ['0', '.', '0'] else (Binary64.shortest m q).layout
          let (whole, rest) := ds.span Char.isDigit
          some (whole, if l.alternate && rest.head? = some 'e' then '.' :: rest else rest)
  | some k =>
      if k = .scalar 'f' || k = .scalar 'F' || k = .scalar '%' then
        let (whole, fraction) := Binary64.fixed m q precision
        some (whole, afterPoint l.alternate fraction ++ (if k = .scalar '%' then ['%'] else []))
      else if k = .scalar 'e' || k = .scalar 'E' then
        some (scientific l.alternate (Binary64.significant m q (precision + 1)))
      else if k = .scalar 'g' || k = .scalar 'G' || k = .scalar 'n' then
        some (general l.alternate false precision m q)
      else none

def float (l : Layout) (x : Binary64) : Except TemplateFault Text := do
  let kinds := Text.ofString "fF%eEgGn"
  if !(l.kind.map kinds.contains).getD true || capacity < l.precision.getD 0 then throw .unusable
  let x := if l.kind = some (.scalar '%') then x.mul (.ofInt 100) else x
  let percent : List Char := if l.kind = some (.scalar '%') then ['%'] else []
  let cased (t : List Char) : Text :=
    Text.ofChars (if isUpperKind l.kind then t.map Char.toUpper else t)
  match x.view with
  | .nan => l.numeral false [] [] (cased ("nan".toList ++ percent))
  | .infinite negative => l.numeral negative [] [] (cased ("inf".toList ++ percent))
  | .finite negative m q =>
      match l.finite m q with
      | none => throw .unusable
      | some (whole, rest) =>
          let isZero := (whole ++ rest.takeWhile (· ≠ 'e')).all fun c => !c.isDigit || c = '0'
          l.numeral (negative && !(l.unsignedZero && isZero)) [] (cased whole) (cased rest)

def base? (kind : Option CodePoint) : Option (Nat × Text) :=
  match kind with
  | none => some (10, [])
  | some k =>
      if k = .scalar 'd' || k = .scalar 'n' then some (10, [])
      else if k = .scalar 'b' then some (2, "0b")
      else if k = .scalar 'o' then some (8, "0o")
      else if k = .scalar 'x' then some (16, "0x")
      else if k = .scalar 'X' then some (16, "0X")
      else none

/-- The character with a number, laid out as a text is. Numbers of more than 64 bits have a fault of
their own. -/
def character (l : Layout) (n : Int) : Except TemplateFault Text := do
  if l.precision.isSome || l.unsignedZero || l.sign.isSome || l.alternate ||
      l.separator.isSome then
    throw .unusable
  if n < -(limit + 1 : Int) || (limit : Int) < n then
    throw (.failure (.range .characterNumber))
  match if n < 0 then none else CodePoint.ofNat? n.toNat with
  | some c => do
      l.checkWidth
      return l.pad .right [] [c]
  | none => throw (.failure (.range .character))

/-- The kinds of number for which a whole number is laid out as a floating point number. -/
def floatKinds : Text := "eEfFgG%"

def int (l : Layout) (n : Int) : Except TemplateFault Text := do
  if l.kind = some (.scalar 'c') then l.character n
  else
    match base? l.kind with
    | some (base, mark) =>
        if l.precision.isSome || l.unsignedZero then throw .unusable
        let ds := Digits.ofNat base n.natAbs
        let ds := if isUpperKind l.kind then ds.map Char.toUpper else ds
        l.numeral (n < 0) (if l.alternate then mark else []) (Text.ofChars ds) []
    | none =>
        if !(l.kind.map floatKinds.contains).getD false then throw .unusable
        let x := Binary64.ofInt n
        match x.view with
        | .infinite _ => throw (.failure (.range .integerAsFloat))
        | _ => l.float x

def value (t : Text) (v : Value) : Except TemplateFault Text :=
  let read (numeric : Bool) (f : Layout → Except TemplateFault Text) : Except TemplateFault Text :=
    match Layout.read numeric t with
    | some l => f l
    | none => .error .unusable
  if t.isEmpty then .ok v.text
  else
    match v with
    | .str s => read false (·.text s)
    | .int n => read true (·.int n)
    | .bool b => read true (·.int (if b then 1 else 0))
    | .float x => read true (·.float x)
    | v => .error (.failure (.placeholder (.formatNotSupported v.typeName)))

end Layout

end LocaleKeys
