import LocaleKeys.Text.Utf8

/-!
# Names as bytes

The names of files, users and variables reach the system as bytes. The surrogates U+DC80 to U+DCFF
stand for single bytes that are no character; other surrogates have no bytes, and a NUL character
would end a name early. `Name.check` refuses both.
-/

namespace LocaleKeys

/-- Why a text is no name. -/
inductive NameFault where
  | nul
  | encoding (f : Utf8.EncodeFault)
deriving DecidableEq, Repr

namespace Name

def isByteSurrogate : CodePoint → Bool
  | .scalar _ => false
  | .surrogate u => 0x480 ≤ u.val && u.val < 0x500

def byteLength : Text → Nat
  | [] => 0
  | .scalar c :: t => c.utf8Size + byteLength t
  | .surrogate _ :: t => 1 + byteLength t

/-- The first place at which a text of which the first code point stands at position `pos` cannot be
written as bytes. -/
def faultAt? (pos : Nat) : Text → Option Utf8.EncodeFault
  | [] => none
  | .scalar _ :: t => faultAt? (pos + 1) t
  | .surrogate u :: t =>
      if isByteSurrogate (.surrogate u) then faultAt? (pos + 1) t
      else some ⟨pos, pos + (t.takeWhile (!·.isScalar)).length, u⟩

def checkBytes (name : Text) : Except NameFault Unit :=
  match faultAt? 0 name with
  | some f => .error (.encoding f)
  | none => .ok ()

def check (name : Text) : Except NameFault Unit := do
  checkBytes name
  if name.contains (.scalar '\x00') then throw .nul

end Name

end LocaleKeys
