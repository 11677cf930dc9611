import LocaleKeys.Number.Digits
import LocaleKeys.Text.Printable

/-!
# Quoted text

The form in which messages show a file name or a list of names: between single quotes, or between
double quotes when the text has a single quote and no double quote. A backslash and the enclosing
quote are escaped, and so is every code point that is not printable.
-/

namespace LocaleKeys

def CodePoint.quoted (q : Char) (c : CodePoint) : Text :=
  if c = .scalar q ∨ c = .scalar '\\' then [.scalar '\\', c]
  else if c = .scalar '\t' then "\\t"
  else if c = .scalar '\n' then "\\n"
  else if c = .scalar '\r' then "\\r"
  else if c.isPrintable then [c]
  else if c.value < 0x100 then "\\x" ++ Text.hex 2 c.value
  else if c.value < 0x10000 then "\\u" ++ Text.hex 4 c.value
  else "\\U" ++ Text.hex 8 c.value

namespace Text

/-- The quote that encloses a text: the double one only if the text has single quotes alone. -/
def quoteFor (t : Text) : Char :=
  if t.contains (.scalar '\'') && !t.contains (.scalar '"') then '"' else '\''

def quoted (t : Text) : Text :=
  let q := quoteFor t
  .scalar q :: (t.flatMap (CodePoint.quoted q) ++ [.scalar q])

def asciiEscaped (t : Text) : Text :=
  t.flatMap fun c =>
    if c.value < 0x80 then [c]
    else if c.value < 0x100 then "\\x" ++ Text.hex 2 c.value
    else if c.value < 0x10000 then "\\u" ++ Text.hex 4 c.value
    else "\\U" ++ Text.hex 8 c.value

def quotedList (ts : List Text) : Text := "[" ++ join ", " (ts.map quoted) ++ "]"

end Text

end LocaleKeys
