import LocaleKeys.Config.Value
import LocaleKeys.Problem

/-!
# Failures

Why an action ends without a result. Besides the problems that a run reports there are the faults of
the layers below, which reach the user only where nothing turns them into a problem, and the
interruption by the user.
-/

namespace LocaleKeys

inductive TypeFault where
  | config (typeName : Text)
  | field (name expected typeName : Text)
  | integer (typeName : Text)
deriving DecidableEq, Repr

def TypeFault.message : TypeFault → Text
  | config t => "Invalid config type: expected dict, received " ++ t ++ "."
  | field n e t => "Invalid field '" ++ n ++ "': expected " ++ e ++ ", received " ++ t ++ "."
  | integer t =>
      "int() argument must be a string, a bytes-like object or a real number, not '" ++ t ++ "'"

/-- A step of a placeholder that its value does not support, or an argument whose name is taken. -/
inductive PlaceholderFault where
  | noAttribute (typeName name : Text)
  | kindNoAttribute (typeName name : Text)
  | notSubscriptable (typeName : Text)
  | kindNotSubscriptable (typeName : Text)
  | textIndex (typeName : Text)
  | formatNotSupported (typeName : Text)
  | argumentTwice (name : Text)
deriving DecidableEq, Repr

def PlaceholderFault.message : PlaceholderFault → Text
  | noAttribute t n => "'" ++ t ++ "' object has no attribute '" ++ n ++ "'"
  | kindNoAttribute t n => "type object '" ++ t ++ "' has no attribute '" ++ n ++ "'"
  | notSubscriptable t => "'" ++ t ++ "' object is not subscriptable"
  | kindNotSubscriptable t => "type '" ++ t ++ "' is not subscriptable"
  | textIndex t =>
      if t = Text.ofString "str" then "string indices must be integers, not 'str'"
      else t ++ " indices must be integers or slices, not str"
  | formatNotSupported t => "unsupported format string passed to " ++ t ++ ".__format__"
  | argumentTwice n => "I18n.t() got multiple values for argument '" ++ n ++ "'"

/-- A number that is too large for what is asked for, or infinite. A width that no text can have is
told without words. -/
inductive RangeFault where
  | infinite
  | integerAsFloat
  | character
  | characterNumber
  | codePoint
  | width
deriving DecidableEq, Repr

def RangeFault.message : RangeFault → Text
  | infinite => "cannot convert float infinity to integer"
  | integerAsFloat => "int too large to convert to float"
  | character => "%c arg not in range(0x110000)"
  | characterNumber => "Python int too large to convert to C long"
  | codePoint => "Python int too large to convert to C int"
  | width => []

/-- Why the library that reads YAML gives no value: it has a fault of its own for a document that is
not valid, the system may refuse to go on reading, and it may raise anything else, which has a name
of its own. -/
inductive YamlFault where
  | invalid (message : Text)
  | refused (e : SystemError)
  | raised (kind message : Text)
deriving DecidableEq, Repr

inductive Failure where
  | problem (p : Problem)
  | system (e : SystemError)
  | encoding (f : Utf8.EncodeFault)
  | decoding (f : Utf8.DecodeFault)
  | value (f : ValueFault)
  | type (f : TypeFault)
  | placeholder (f : PlaceholderFault)
  | range (f : RangeFault)
  | library (kind message : Text)
  | interrupted
deriving DecidableEq, Repr

namespace Failure

def ofName : NameFault → Failure
  | .nul => value .nulInName
  | .encoding f => encoding f

def ofStore : StoreFault → Failure
  | .system e => system e
  | .name f => ofName f

def message : Failure → Text
  | problem p => p.message
  | system e => e.message
  | encoding f => f.message
  | decoding f => f.message
  | value f => f.message
  | type f => f.message
  | placeholder f => f.message
  | range f => f.message
  | library _ message => message
  | interrupted => []

end Failure

end LocaleKeys
