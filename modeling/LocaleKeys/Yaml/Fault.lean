import LocaleKeys.Config.Value
import LocaleKeys.Text.Utf8

/-!
# Faults of a YAML document

What can be wrong with a document: its characters, the tokens they form, the order of the tokens,
and the values. A fault names the line where one is known. A value that looks like a number or a
date and is none is not a fault of the document but of the value.
-/

namespace LocaleKeys

namespace Yaml

inductive Fault where
  | character (c : Char)
  | token (line : Nat) (what : Text)
  | grammar (expected : Text)
  | severalDocuments
  | untypedScalar (text : Text)
  | unhashableKey
deriving DecidableEq, Repr

def Fault.message : Fault → Text
  | character c => "unacceptable character #x" ++ Text.hex 4 c.toNat
  | token line what => what ++ " (line " ++ Text.ofNat (line + 1) ++ ")"
  | grammar expected => "expected " ++ expected
  | severalDocuments => "expected a single document"
  | untypedScalar t => "could not determine a value for '" ++ t ++ "'"
  | unhashableKey => "found unhashable key"

/-- Why reading a document ends early: a fault of the document or of a value, bytes that are not
UTF-8, or an escape for a code point with a number of 32 bits. -/
inductive Stop where
  | fault (f : Fault)
  | value (v : ValueFault)
  | reading (f : Utf8.DecodeFault)
  | codePointNumber
deriving DecidableEq, Repr

end Yaml

end LocaleKeys
