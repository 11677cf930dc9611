import LocaleKeys.Json.Basic

/-!
# Writing JSON

One member or item a line, indented by two spaces for each level; an empty object or array is
written on one line. Strings are written as they are except for the two characters with a meaning in
a string and the control characters below U+0020.
-/

namespace LocaleKeys

namespace Json

def escape (c : CodePoint) : Text :=
  match c with
  | .scalar '"' => "\\\""
  | .scalar '\\' => "\\\\"
  | .scalar '\n' => "\\n"
  | .scalar '\r' => "\\r"
  | .scalar '\t' => "\\t"
  | .scalar '\x08' => "\\b"
  | .scalar '\x0c' => "\\f"
  | c => if c.value < 0x20 then "\\u" ++ Text.hex 4 c.value else [c]

def quote (t : Text) : Text := .scalar '"' :: (t.flatMap escape ++ [.scalar '"'])

def floatText (x : Binary64) : Text :=
  match x.view with
  | .nan => "NaN"
  | .infinite false => "Infinity"
  | .infinite true => "-Infinity"
  | _ => x.text

def newLine (level : Nat) : Text := .scalar '\n' :: Text.fill (2 * level) ' '

mutual

/-- A value whose first line stands at the given level. -/
def render (level : Nat) : Json → Text
  | null => "null"
  | bool true => "true"
  | bool false => "false"
  | int n => Text.ofInt n
  | float x => floatText x
  | str t => quote t
  | arr [] => "[]"
  | arr (v :: vs) =>
      "[" ++ newLine (level + 1) ++ renderItems (level + 1) (v :: vs) ++ newLine level ++ "]"
  | obj [] => "\x7b\x7d"
  | obj (m :: ms) =>
      "\x7b" ++ newLine (level + 1) ++ renderMembers (level + 1) (m :: ms) ++ newLine level ++
        "\x7d"
termination_by structural v => v

def renderItems (level : Nat) : List Json → Text
  | [] => []
  | [v] => render level v
  | v :: w :: vs => render level v ++ "," ++ newLine level ++ renderItems level (w :: vs)
termination_by structural vs => vs

def renderMembers (level : Nat) : List (Text × Json) → Text
  | [] => []
  | [m] => renderMember level m
  | m :: n :: ms => renderMember level m ++ "," ++ newLine level ++ renderMembers level (n :: ms)
termination_by structural ms => ms

def renderMember (level : Nat) : Text × Json → Text
  | (k, v) => quote k ++ ": " ++ render level v
termination_by structural m => m

end

def print (v : Json) : Text := render 0 v

end Json

end LocaleKeys
