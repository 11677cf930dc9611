import LocaleKeys.Calendar.Date
import LocaleKeys.Json.Basic
import LocaleKeys.Text.Quoted

/-!
# Option values

What may stand in a configuration document: the values of JSON, dates and times, mappings whose keys
need not be strings, and whatever else a reader of such documents makes, of which only the name of
its type, its text and its truth are ever asked for. `text` is how a value appears inside a message,
and `message` is the same unless the value is too long for one.
-/

namespace LocaleKeys

inductive Value where
  | null
  | bool (b : Bool)
  | int (n : Int)
  | float (x : Binary64)
  | str (t : Text)
  | date (d : Date)
  | dateTime (t : DateTime)
  | list (items : List Value)
  | dict (entries : List (Value × Value))
  | other (typeName shown : Text) (truthy : Bool)
deriving Repr

namespace Value

instance : Inhabited Value := ⟨null⟩

def typeName : Value → Text
  | null => "NoneType"
  | bool _ => "bool"
  | int _ => "int"
  | float _ => "float"
  | str _ => "str"
  | date _ => "date"
  | dateTime _ => "datetime"
  | list _ => "list"
  | dict _ => "dict"
  | other name _ _ => name

def isTruthy : Value → Bool
  | null => false
  | bool b => b
  | int n => n ≠ 0
  | float x => !x.equalsInt 0
  | str t => !t.isEmpty
  | date _ => true
  | dateTime _ => true
  | list items => !items.isEmpty
  | dict entries => !entries.isEmpty
  | other _ _ truthy => truthy

mutual

def shown : Value → Text
  | null => "None"
  | bool true => "True"
  | bool false => "False"
  | int n => Text.ofInt n
  | float x => x.text
  | str t => Text.quoted t
  | date d => d.text
  | dateTime t => t.text ' '
  | list items => "[" ++ Text.join ", " (shownItems items) ++ "]"
  | dict entries => "\x7b" ++ Text.join ", " (shownEntries entries) ++ "\x7d"
  | other _ shown _ => shown
termination_by structural v => v

def shownItems : List Value → List Text
  | [] => []
  | v :: vs => shown v :: shownItems vs
termination_by structural vs => vs

def shownEntries : List (Value × Value) → List Text
  | [] => []
  | e :: es => shownEntry e :: shownEntries es
termination_by structural es => es

def shownEntry : Value × Value → Text
  | (k, v) => shown k ++ ": " ++ shown v
termination_by structural e => e

end

def text : Value → Text
  | str t => t
  | v => shown v

/-- The number that a value is as a key: the truth values are one and zero. -/
def keyInt? : Value → Option Int
  | bool b => some (if b then 1 else 0)
  | int n => some n
  | _ => none

/-- Whether two values are the same key of a mapping. Numbers are compared by value; every
not-a-number of a document is the same one. -/
def sameKey : Value → Value → Bool
  | null, null => true
  | str s, str t => s = t
  | date d, date e => d = e
  | dateTime s, dateTime t => s.same t
  | other m s _, other n t _ => m = n && s = t
  | float x, float y => x = y || x.sameValue y
  | float x, v => match v.keyInt? with
      | some n => x.equalsInt n
      | none => false
  | v, float x => match v.keyInt? with
      | some n => x.equalsInt n
      | none => false
  | v, w => match v.keyInt?, w.keyInt? with
      | some m, some n => m = n
      | _, _ => false

/-- The entries with a value under a key: the first spelling of a key stays, with the last value. -/
def put (key value : Value) : List (Value × Value) → List (Value × Value)
  | [] => [(key, value)]
  | (k, v) :: es => if sameKey k key then (k, value) :: es else (k, v) :: put key value es

mutual

def ofJson : Json → Value
  | .null => null
  | .bool b => bool b
  | .int n => int n
  | .float x => float x
  | .str t => str t
  | .arr items => list (ofItems items)
  | .obj members => dict (ofMembers members)
termination_by structural v => v

def ofItems : List Json → List Value
  | [] => []
  | v :: vs => ofJson v :: ofItems vs
termination_by structural vs => vs

def ofMembers : List (Text × Json) → List (Value × Value)
  | [] => []
  | m :: ms => ofMember m :: ofMembers ms
termination_by structural ms => ms

def ofMember : Text × Json → Value × Value
  | (k, v) => (str k, ofJson v)
termination_by structural m => m

end

end Value

def integerTextLimit : Nat := 200

inductive ValueFault where
  | integerDigits (count : Nat)
  | integerShown
  | integerText (base : Nat) (text : Text)
  | codePoint
  | date (f : DateFault)
  | nulInName
  | notANumber
deriving DecidableEq, Repr

def ValueFault.message : ValueFault → Text
  | integerDigits n =>
      "Exceeds the limit (" ++ Text.ofNat integerDigitLimit ++
        " digits) for integer string conversion: value has " ++ Text.ofNat n ++
        " digits; use sys.set_int_max_str_digits() to increase the limit"
  | integerShown =>
      "Exceeds the limit (" ++ Text.ofNat integerDigitLimit ++
        " digits) for integer string conversion; use sys.set_int_max_str_digits() to increase " ++
        "the limit"
  | integerText base t =>
      "invalid literal for int() with base " ++ Text.ofNat base ++ ": " ++
        (Text.quoted t).take integerTextLimit
  | codePoint => "chr() arg not in range(0x110000)"
  | date f => f.message
  | nulInName => "embedded null byte"
  | notANumber => "cannot convert float NaN to integer"

def Value.message (v : Value) : Except ValueFault Text :=
  match v with
  | .int n =>
      if Nat.pow 10 integerDigitLimit ≤ n.natAbs then .error .integerShown else .ok v.text
  | v => .ok v.text

end LocaleKeys
