import LocaleKeys.Text.Basic

/-!
# Blank characters

The characters that separate words: the bidirectional classes B, S and WS together with the
space separators. U+200B and U+FEFF are not among them.
-/

namespace LocaleKeys

def CodePoint.isBlank (c : CodePoint) : Bool :=
  let n := c.value
  (0x09 ≤ n && n ≤ 0x0D) || (0x1C ≤ n && n ≤ 0x20) || n == 0x85 || n == 0xA0 || n == 0x1680 ||
    (0x2000 ≤ n && n ≤ 0x200A) || n == 0x2028 || n == 0x2029 || n == 0x202F || n == 0x205F ||
    n == 0x3000

namespace Text

def trimRight (t : Text) : Text := (t.reverse.dropWhile CodePoint.isBlank).reverse

def trim (t : Text) : Text := trimRight (t.dropWhile CodePoint.isBlank)

end Text

end LocaleKeys
