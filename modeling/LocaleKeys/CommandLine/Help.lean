import LocaleKeys.CommandLine.Arguments
import LocaleKeys.Locale.Catalogue
import LocaleKeys.Number.Reading
import LocaleKeys.Path.Expansion
import LocaleKeys.Text.Wrap

/-!
# Usage and help

The usage lists all options on as few lines as fit the terminal; the help adds what the program does
and explains every option in a second column. The width of the terminal is the variable `COLUMNS` if
that is a positive number, else 80.
-/

namespace LocaleKeys

namespace Help

def program : Text := "rn-translation-gen"

/-- The width of the lines: that of the terminal without two columns. -/
def width (env : Environment) : Nat :=
  let columns : Int := match env.get? "COLUMNS" with
    | some t => (Reading.int t).toOption.getD 0
    | none => 0
  if 0 < columns then columns.toNat - 2 else 78

def invocation (s : Switch) (spelling : Text) : Text :=
  match s.placeholder? with
  | some p => spelling ++ " " ++ p
  | none => spelling

def usagePart (s : Switch) : Text :=
  "[" ++ invocation s (s.spellings.headD []) ++ "]"

/-- Lays parts on lines that begin with `indent`; `used` counts the columns before the next part,
less one, and `line` holds the parts of the line so far. -/
def layLines (width : Nat) (indent : Text) (used : Nat) (line : List Text) : List Text → List Text
  | [] => if line.isEmpty then [] else [indent ++ Text.join " " line]
  | p :: ps =>
      if width < used + 1 + p.length && !line.isEmpty then
        (indent ++ Text.join " " line) :: layLines width indent (indent.length + p.length) [p] ps
      else layLines width indent (used + p.length + 1) (line ++ [p]) ps

def usageTitle : Text := "usage: "

def usageBody (width : Nat) : Text :=
  let parts := Switch.all.map usagePart
  let plain := Text.join " " (program :: parts)
  if usageTitle.length + plain.length ≤ width then plain
  else if 4 * (usageTitle.length + program.length) ≤ 3 * width then
    let indent := Text.fill (usageTitle.length + program.length + 1) ' '
    match layLines width indent (usageTitle.length - 1) [] (program :: parts) with
    | [] => []
    | first :: rest => Text.join "\n" (first.drop indent.length :: rest)
  else
    let indent := Text.fill usageTitle.length ' '
    Text.join "\n" (program :: layLines width indent (indent.length - 1) [] parts)

def usage (width : Nat) : Text := usageTitle ++ usageBody width ++ "\n"

def helpColumn (width : Nat) : Nat := min 24 (max (width - 20) 4)

def leastWidth : Nat := 11

def entry (c : Catalogue) (width : Nat) (s : Switch) : List Text :=
  let column := helpColumn width
  let head : Text := Text.join ", " (s.spellings.map (invocation s))
  let lines := Wrap.lines (max (width - column) leastWidth) (c.text s.helpPath [])
  let indented := lines.map (Text.fill column ' ' ++ ·)
  if head.length + 4 ≤ column then
    match lines with
    | [] => [Text.fill 2 ' ' ++ head]
    | first :: _ =>
        (Text.fill 2 ' ' ++ head ++ Text.fill (column - 2 - head.length) ' ' ++ first) ::
          indented.drop 1
  else (Text.fill 2 ' ' ++ head) :: indented

def help (c : Catalogue) (width : Nat) : Text :=
  let description := Wrap.lines (max width leastWidth) (c.text "app.description" [])
  usage width ++ "\n" ++ Text.join "\n" description ++ "\n\noptions:\n" ++
    Text.join "\n" (Switch.all.flatMap (entry c width)) ++ "\n"

def complaint (width : Nat) (f : UsageFault) : Text :=
  usage width ++ program ++ ": error: " ++ f.message ++ "\n"

end Help

end LocaleKeys
