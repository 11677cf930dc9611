import LocaleKeys.Yaml.Fault

/-!
# What a plain scalar stands for

A plain scalar is a truth value, a number, a date, a time or nothing if it has the form of one, and
a string otherwise. Whole numbers may be written in base two, eight (with a leading zero), ten,
sixteen and, with colons, sixty; underscores between digits do not count. A fraction needs its
point, and an exponent its sign.
-/

namespace LocaleKeys

namespace Yaml

namespace Plain

def trueWords : List Text := ["yes", "Yes", "YES", "true", "True", "TRUE", "on", "On", "ON"]

def falseWords : List Text := ["no", "No", "NO", "false", "False", "FALSE", "off", "Off", "OFF"]

def nullWords : List Text := ["", "~", "null", "Null", "NULL"]

def sign : List Char → Bool × List Char
  | '-' :: cs => (true, cs)
  | '+' :: cs => (false, cs)
  | cs => (false, cs)

def isDigitOrMark (c : Char) : Bool := c.isDigit || c = '_'

def withoutMarks (cs : List Char) : List Char := cs.filter (· ≠ '_')

def colonParts (cs : List Char) : List (List Char) :=
  cs.foldr (fun c parts =>
    if c = ':' then [] :: parts
    else
      match parts with
      | [] => [[c]]
      | p :: ps => (c :: p) :: ps) [[]]

def isSexagesimal : List Char → Bool
  | [a] => a.isDigit
  | [a, b] => '0' ≤ a && a ≤ '5' && b.isDigit
  | _ => false

def isNumeral : List Char → Bool
  | [] => false
  | c :: cs => c.isDigit && cs.all isDigitOrMark

def isPositiveNumeral (cs : List Char) : Bool := isNumeral cs && cs.head? ≠ some '0'

def isInteger (cs : List Char) : Bool :=
  match cs with
  | '0' :: 'b' :: ds => !ds.isEmpty && ds.all fun c => c = '0' || c = '1' || c = '_'
  | '0' :: 'x' :: ds => !ds.isEmpty && ds.all fun c => Digits.isDigitOf 16 c || c = '_'
  | ['0'] => true
  | '0' :: ds => ds.all fun c => Digits.isDigitOf 8 c || c = '_'
  | cs =>
      match colonParts cs with
      | [p] => isPositiveNumeral p
      | p :: ps => isPositiveNumeral p && ps.all isSexagesimal
      | [] => false

def inBase (base : Nat) (ds : List Char) : Except ValueFault Int :=
  if ds.isEmpty then .error (.integerText base (Text.ofChars ds))
  else .ok (Digits.value base ds)

def integer (cs : List Char) : Except ValueFault Int := do
  let (negative, ds) := sign (withoutMarks cs)
  let n ←
    match ds with
    | '0' :: 'b' :: ds => inBase 2 ds
    | '0' :: 'x' :: ds => inBase 16 ds
    | '0' :: ds => if ds.isEmpty then pure 0 else inBase 8 ds
    | ds =>
        match colonParts ds with
        | [ds] =>
            if integerDigitLimit < ds.length then throw (.integerDigits ds.length)
            else pure (Digits.value 10 ds : Int)
        | parts =>
            match parts.find? (integerDigitLimit < ·.length) with
            | some p => throw (.integerDigits p.length)
            | none => pure (parts.foldl (fun n p => n * 60 + Digits.value 10 p) 0 : Nat)
  return if negative then -n else n

/-- A number with a point, split at it and at its exponent: digits before and behind the point, and
the exponent. -/
def fractionParts? (cs : List Char) : Option (List Char × List Char × Int) :=
  let whole := cs.takeWhile (· ≠ '.')
  match cs.dropWhile (· ≠ '.') with
  | '.' :: r =>
      let places := r.takeWhile isDigitOrMark
      let exponent : Option Int :=
        match r.dropWhile isDigitOrMark with
        | [] => some 0
        | e :: s :: ds =>
            if (e = 'e' || e = 'E') && (s = '-' || s = '+') && !ds.isEmpty &&
                ds.all Char.isDigit then
              let n : Int := Digits.value 10 ds
              some (if s = '-' then -n else n)
            else none
        | _ => none
      exponent.map fun e => (whole, places, e)
  | _ => none

def decimal (whole places : List Char) (exponent : Int) : Binary64 :=
  let places := withoutMarks places
  .ofDecimal false (Digits.value 10 (withoutMarks whole ++ places)) (exponent - places.length)

/-- A number with a point whose parts before it are in base sixty: every part is rounded in turn. -/
def sexagesimal (parts : List Binary64) : Binary64 :=
  let (sum, _) := parts.reverse.foldl
    (fun (sum, base) part => (sum.add (part.mul (.ofInt base)), base * 60))
    (Binary64.zero false, (1 : Int))
  sum

/-- The number that an unsigned text with a point stands for, if it has the form of one. `signed`
says whether there was a sign, which may not stand directly before a point that is followed by
digits. -/
def unsignedFloat? (signed : Bool) (cs : List Char) : Option Binary64 :=
  if [".inf", ".Inf", ".INF"].contains (String.ofList cs) then some (.infinity false)
  else if !signed && [".nan", ".NaN", ".NAN"].contains (String.ofList cs) then some .nan
  else
    match fractionParts? cs with
    | none => none
    | some ([], places, e) =>
        if !signed && isNumeral places then some (decimal [] places e) else none
    | some (whole, places, e) =>
        match colonParts whole with
        | [p] => if isNumeral p then some (decimal p places e) else none
        | parts =>
            let noExponent := (cs.all fun c => c ≠ 'e' && c ≠ 'E')
            if noExponent && parts.head?.any isNumeral && (parts.drop 1).all isSexagesimal then
              some (sexagesimal
                ((parts.dropLast.map fun p => decimal p [] 0) ++
                  [decimal (parts.getLast?.getD []) places 0]))
            else none

def float? (cs : List Char) : Option Binary64 :=
  let (negative, ds) := sign cs
  let signed := ds.length < cs.length
  (unsignedFloat? signed ds).map fun x => if negative then x.neg else x

/-! ## Dates and times -/

def digitsAtFront (least most : Nat) (cs : List Char) : Option (Nat × List Char) :=
  let ds := (cs.take most).takeWhile Char.isDigit
  if ds.length < least then none else some (Digits.value 10 ds, cs.drop ds.length)

def mark (c : Char) : List Char → Option (List Char)
  | [] => none
  | x :: cs => if x = c then some cs else none

def skipBlanks (cs : List Char) : List Char := cs.dropWhile fun c => c = ' ' || c = '\t'

def offset? (cs : List Char) : Option (Option Int) :=
  if cs.isEmpty then some none
  else
    match skipBlanks cs with
    | ['Z'] => some (some 0)
    | s :: ds =>
        if s = '-' || s = '+' then do
          let (hours, ds) ← digitsAtFront 1 2 ds
          let minutes ←
            match ds with
            | [] => some 0
            | ':' :: ds =>
                match ← digitsAtFront 2 2 ds with
                | (m, []) => some m
                | _ => none
            | _ => none
          let n : Int := hours * 60 + minutes
          return some (if s = '-' then -n else n)
        else none
    | [] => none

/-- The place between a date and a time, which is a letter or blanks. -/
def timeStart? : List Char → Option (List Char)
  | 'T' :: cs => some cs
  | 't' :: cs => some cs
  | c :: cs => if c = ' ' || c = '\t' then some (skipBlanks cs) else none
  | [] => none

def microseconds (ds : List Char) : Nat :=
  let ds := ds.take 6
  Digits.value 10 (ds ++ List.replicate (6 - ds.length) '0')

def timestamp? (cs : List Char) : Option (Except DateFault Value) := do
  let (year, r) ← digitsAtFront 4 4 cs
  let r ← mark '-' r
  let (month, r₁) ← digitsAtFront 1 2 r
  let r₁ ← mark '-' r₁
  let (day, r₂) ← digitsAtFront 1 2 r₁
  if r₂.isEmpty then
    if r.length = 5 then return (Date.make year month day).map Value.date else none
  else
    let r ← timeStart? r₂
    let (hour, r) ← digitsAtFront 1 2 r
    let r ← mark ':' r
    let (minute, r) ← digitsAtFront 2 2 r
    let r ← mark ':' r
    let (second, r) ← digitsAtFront 2 2 r
    let (fraction, r) := match r with
      | '.' :: r => (r.takeWhile Char.isDigit, r.dropWhile Char.isDigit)
      | r => ([], r)
    let offset ← offset? r
    return (DateTime.make year month day hour minute second (microseconds fraction) offset).map
      Value.dateTime

/-- The value of a plain scalar. Two forms have no value of their own: the mark that merges
mappings, and the one that names a default. -/
def value (t : Text) : Except Stop Value :=
  if trueWords.contains t then .ok (.bool true)
  else if falseWords.contains t then .ok (.bool false)
  else if nullWords.contains t then .ok .null
  else if t = Text.ofString "<<" || t = Text.ofString "=" then .error (.fault (.untypedScalar t))
  else
    match t.toChars? with
    | none => .ok (.str t)
    | some cs =>
        match float? cs, isInteger (sign cs).2, timestamp? cs with
        | some x, _, _ => .ok (.float x)
        | none, true, _ =>
            match integer cs with
            | .ok n => .ok (.int n)
            | .error f => .error (.value f)
        | none, false, some (.ok v) => .ok v
        | none, false, some (.error f) => .error (.value (.date f))
        | none, false, none => .ok (.str t)

end Plain

end Yaml

end LocaleKeys
