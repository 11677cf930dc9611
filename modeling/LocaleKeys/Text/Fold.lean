import LocaleKeys.Text.Basic

/-!
# Words without regard to case

Words that a user may write in any case are compared after one of the two foldings below. They treat
the ASCII letters, and `upper` also the dotless i, whose capital is the ASCII `I`. No other letter
has a single ASCII letter as its counterpart in the words that are looked up: the output modes, the
words for true and false, and the names of the severities.
-/

namespace LocaleKeys

namespace CodePoint

def lower : CodePoint → CodePoint
  | scalar c => scalar c.toLower
  | surrogate u => surrogate u

def upper : CodePoint → CodePoint
  | scalar c => if c = 'ı' then scalar 'I' else scalar c.toUpper
  | surrogate u => surrogate u

end CodePoint

namespace Text

def lower (t : Text) : Text := t.map CodePoint.lower

def upper (t : Text) : Text := t.map CodePoint.upper

end Text

end LocaleKeys
