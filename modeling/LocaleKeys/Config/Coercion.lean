import LocaleKeys.Config.Value
import LocaleKeys.Failure
import LocaleKeys.Text.Blank
import LocaleKeys.Text.Fold

/-!
# Values of the type that an option needs

An option file may hold a number where a text is needed, or a word where a truth value is. `asText`
and `asFlag` accept such values with a warning, and give nothing, with a warning, for any other
value. With `strict` only a value of the right type is accepted, and a warning becomes a fault.
-/

namespace LocaleKeys

/-- What accepting a value gives: the value, unless a fallback has to take its place, and warnings.
-/
structure Coerced (α : Type) where
  value? : Option α
  warnings : List Text := []
deriving DecidableEq, Repr

namespace Coerced

/-- What is done with a value of the wrong type. -/
def reject {α : Type} (strict : Bool) (field expected : Text) (v : Value) :
    Except Failure (Coerced α) :=
  let fault := TypeFault.field field expected v.typeName
  if strict then .error (.type fault)
  else .ok { value? := none, warnings := [fault.message ++ " Using fallback."] }

def numberText (strict : Bool) (field : Text) (v : Value) : Except Failure (Coerced Text) :=
  if strict then reject strict field "str" v
  else do
    let t ← v.message.mapError Failure.value
    return { value? := some t
             warnings := ["Field '" ++ field ++ "' converted from number " ++ t ++ " to string."] }

def asText (strict : Bool) (field : Text) (v : Value) : Except Failure (Coerced Text) :=
  match v with
  | .null => .ok { value? := none }
  | .str t => .ok { value? := if t.trim.isEmpty then none else some t.trim }
  | .int n => numberText strict field (.int n)
  | .float x => numberText strict field (.float x)
  | v => reject strict field "str" v

def yesWords : List Text := ["true", "1", "yes", "y", "on"]

def noWords : List Text := ["false", "0", "no", "n", "off"]

def ofWord? (word : Text) : Option Bool :=
  let w := word.trim.lower
  if yesWords.contains w then some true
  else if noWords.contains w then some false
  else none

/-- The truth value that a number stands for: that of one or of zero. -/
def ofNumber? : Value → Option Bool
  | .int n => if n = 0 then some false else if n = 1 then some true else none
  | .float x => if x.equalsInt 0 then some false else if x.equalsInt 1 then some true else none
  | _ => none

def converted (field source target : Text) (b : Bool) : Coerced Bool :=
  { value? := some b
    warnings := ["Field '" ++ field ++ "' converted from " ++ source ++ " to " ++ target ++ "."] }

def asFlag (strict : Bool) (field : Text) (v : Value) : Except Failure (Coerced Bool) :=
  match v with
  | .bool b => .ok { value? := some b }
  | .null => .ok { value? := none }
  | .str t =>
      match if strict then none else ofWord? t with
      | some b => .ok (converted field ("'" ++ t ++ "'") (Value.bool b).text b)
      | none => reject strict field "bool" (.str t)
  | v =>
      match if strict then none else ofNumber? v with
      | some b => .ok (converted field ("number " ++ v.text) "bool" b)
      | none => reject strict field "bool" v

end Coerced

end LocaleKeys
