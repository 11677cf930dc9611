import LocaleKeys.Number.Shortest

/-!
# JSON values

The members of an object are a list, because their order is data: it is the order of the document,
in which a repeated name keeps its first place and takes its last value (`put`).
-/

namespace LocaleKeys

inductive Json where
  | null
  | bool (b : Bool)
  | int (n : Int)
  | float (x : Binary64)
  | str (t : Text)
  | arr (items : List Json)
  | obj (members : List (Text × Json))
deriving Repr

namespace Json

instance : Inhabited Json := ⟨null⟩

def typeName : Json → Text
  | null => "NoneType"
  | bool _ => "bool"
  | int _ => "int"
  | float _ => "float"
  | str _ => "str"
  | arr _ => "list"
  | obj _ => "dict"

def find? (key : Text) : List (Text × Json) → Option Json
  | [] => none
  | (k, v) :: ms => if k = key then some v else find? key ms

/-- The members with a value under a name: in the place of the old value if there is one, else at
the end. -/
def put (key : Text) (value : Json) : List (Text × Json) → List (Text × Json)
  | [] => [(key, value)]
  | (k, v) :: ms => if k = key then (k, value) :: ms else (k, v) :: put key value ms

def strings (ts : List Text) : Json := arr (ts.map str)

end Json

end LocaleKeys
