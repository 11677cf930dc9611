import LocaleKeys.KeyTree.Basic

/-!
# Key names

A key may be used in a dotted path if it is not empty and does not contain the separator. `misnamed`
lists the keys that may not, wherever they stand; the keys below such a key are looked at too.
-/

namespace LocaleKeys

namespace KeyTree

def isName (key : Text) : Bool := !key.isEmpty && !key.contains separator

/-- How a misnamed key below the keys `above` is shown: its path, with the key itself in brackets.
-/
def location (above : List Text) (key : Text) : Text := pathOf above ("[" ++ key ++ "]")

def misnamedKey (above : List Text) (key : Text) : List Text :=
  if isName key then [] else [location above key]

/-- The locations of all misnamed keys in the order of the document, a key before the keys below it.
-/
def misnamed {α : Type} (above : List Text) : KeyTree α → List Text
  | nil => []
  | leaf key _ rest => misnamedKey above key ++ misnamed above rest
  | node key below rest =>
      misnamedKey above key ++ misnamed (above ++ [key]) below ++ misnamed above rest

def shownLimit : Nat := 5

def misnamedMessage (locations : List Text) : Text :=
  let shown := Text.join ", " ((locations.take shownLimit).map fun l => "'" ++ l ++ "'")
  let more :=
    if shownLimit < locations.length then
      " (and " ++ Text.ofNat (locations.length - shownLimit) ++ " more)"
    else ([] : Text)
  "Key names must be non-empty and must not contain '" ++ ([separator] : Text) ++ "': " ++ shown ++
    more ++ "."

end KeyTree

end LocaleKeys
