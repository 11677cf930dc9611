import LocaleKeys.Text.Basic

/-!
# Whole numbers as digits

Writing a natural number or an integer in a base, with no sign for zero and a minus sign in front of
a negative number, and reading a run of digits back. Digits above nine are the small letters on
output and either case on input.
-/

namespace LocaleKeys

def Char.digitValue? (c : Char) : Option Nat :=
  if '0' ≤ c ∧ c ≤ '9' then some (c.toNat - '0'.toNat)
  else if 'a' ≤ c ∧ c ≤ 'f' then some (c.toNat - 'a'.toNat + 10)
  else if 'A' ≤ c ∧ c ≤ 'F' then some (c.toNat - 'A'.toNat + 10)
  else none

namespace Digits

def isDigitOf (base : Nat) (c : Char) : Bool :=
  match Char.digitValue? c with
  | some d => decide (d < base)
  | none => false

/-- The number that a run of digits stands for; characters that are no digits count as zero. -/
def value (base : Nat) (ds : List Char) : Nat :=
  ds.foldl (fun n c => n * base + (Char.digitValue? c).getD 0) 0

def ofNat (base n : Nat) : List Char := Nat.toDigits base n

def padded (base width n : Nat) : List Char :=
  let ds := ofNat base n
  List.replicate (width - ds.length) '0' ++ ds

end Digits

namespace Text

def ofNat (n : Nat) : Text := ofChars (Digits.ofNat 10 n)

def ofInt : Int → Text
  | .ofNat n => ofNat n
  | .negSucc n => .scalar '-' :: ofNat (n + 1)

def hex (width n : Nat) : Text := ofChars (Digits.padded 16 width n)

end Text

/-- The most digits that a decimal integer may have when it is read. -/
def integerDigitLimit : Nat := 4300

end LocaleKeys
