import LocaleKeys.Config.Value
import LocaleKeys.Failure
import LocaleKeys.Text.Blank
import LocaleKeys.Text.DecimalDigit

/-!
# Whole numbers as users write them

A run of digits with a sign in front and blanks around it, in which single underscores may separate
digits. The digits may be those of any script. Other values become whole numbers too where that
makes sense: truth values, and floating point numbers without their fraction.
-/

namespace LocaleKeys

namespace Reading

def isSpace (c : CodePoint) : Bool := c.value = 0x20 || (0x09 ≤ c.value && c.value ≤ 0x0D)

def spaced (c : CodePoint) : CodePoint := if 0x7F ≤ c.value && c.isBlank then .scalar ' ' else c

def sign (t : Text) : Bool × Text :=
  match t with
  | .scalar '-' :: r => (true, r)
  | .scalar '+' :: r => (false, r)
  | r => (false, r)

def underscore : CodePoint := '_'

/-- The whole number that a text stands for. Too many digits are a fault whatever follows them. -/
def int (t : Text) : Except ValueFault Int :=
  let (negative, r) := sign ((t.map spaced).dropWhile isSpace)
  let inRun (c : CodePoint) : Bool := c.isDecimal || c = underscore
  let groups := Text.split underscore (r.takeWhile inRun)
  let ds := groups.flatten
  if groups.any List.isEmpty then .error (.integerText 10 t)
  else if integerDigitLimit < ds.length then .error (.integerDigits ds.length)
  else if (r.dropWhile inRun).all isSpace then
    let n : Int := Text.decimalValue ds
    .ok (if negative then -n else n)
  else .error (.integerText 10 t)

def truncate (x : Binary64) : Except Failure Int :=
  match x.view, x.ratio? with
  | .nan, _ => .error (.value .notANumber)
  | _, some (a, b) => .ok (Int.tdiv a b)
  | _, none => .error (.range .infinite)

def intOf : Value → Except Failure Int
  | .int n => .ok n
  | .bool b => .ok (if b then 1 else 0)
  | .float x => truncate x
  | .str t => (int t).mapError Failure.value
  | v => .error (.type (.integer v.typeName))

end Reading

end LocaleKeys
