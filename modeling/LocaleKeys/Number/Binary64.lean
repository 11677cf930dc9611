/-!
# Binary floating point numbers

A number of the 64-bit binary format, kept as its bits, so that two numbers are equal exactly when
they are the same number (a not-a-number included). `ofRatio` rounds a ratio of natural numbers to
the nearest number of the format, a tie to the even significand; everything else is exact arithmetic
on `Nat`.
-/

namespace LocaleKeys

/-- A 64-bit binary floating point number, by its bits. -/
structure Binary64 where
  bits : UInt64
deriving DecidableEq, Repr

namespace Binary64

/-- What the bits of a number say: `± significand · 2 ^ exponent`, an infinity, or no number. -/
inductive View where
  | finite (negative : Bool) (significand : Nat) (exponent : Int)
  | infinite (negative : Bool)
  | nan
deriving DecidableEq, Repr

def signBit : Nat := 0x8000000000000000

/-- The least significand of a normal number, `2 ^ 52`; the bits hold what is above it. -/
def leastNormal : Nat := 0x10000000000000

def view (x : Binary64) : View :=
  let n := x.bits.toNat
  let negative := decide (signBit ≤ n)
  let exponent : Nat := n / leastNormal % 2048
  let fraction : Nat := n % leastNormal
  if exponent = 2047 then
    if fraction = 0 then .infinite negative else .nan
  else if exponent = 0 then .finite negative fraction (-1074)
  else .finite negative (leastNormal + fraction) ((exponent : Int) - 1075)

def isNegative (x : Binary64) : Bool := signBit ≤ x.bits.toNat

def assemble (negative : Bool) (exponent fraction : Nat) : Binary64 :=
  ⟨UInt64.ofNat ((if negative then signBit else 0) + exponent * leastNormal + fraction)⟩

def zero (negative : Bool) : Binary64 := assemble negative 0 0

def infinity (negative : Bool) : Binary64 := assemble negative 2047 0

def nan : Binary64 := assemble false 2047 (leastNormal / 2)

/-- `num / den` to the nearest natural number, a tie to the even one. -/
def roundDiv (num den : Nat) : Nat :=
  let m := num / den
  let r := num % den
  if den < 2 * r ∨ (2 * r = den ∧ m % 2 = 1) then m + 1 else m

def scaled (num den : Nat) : Int → Nat × Nat
  | .ofNat q => (num, den * Nat.pow 2 q)
  | .negSucc q => (num * Nat.pow 2 (q + 1), den)

/-- The exponent of the significand of `num / den`: with it the significand has 53 digits, unless
the number is subnormal. -/
def exponentOf (num den : Nat) : Int :=
  let q := (Nat.log2 num : Int) - Nat.log2 den - 52
  let (n, d) := scaled num den q
  max (if n / d < leastNormal then q - 1 else q) (-1074)

def ofRatio (negative : Bool) (num den : Nat) : Binary64 :=
  if num = 0 then zero negative
  else
    let q := exponentOf num den
    let (n, d) := scaled num den q
    let m := roundDiv n d
    let (m, q) := if m = 2 * leastNormal then (leastNormal, q + 1) else (m, q)
    if m < leastNormal then assemble negative 0 m
    else if 972 ≤ q then infinity negative
    else assemble negative (q + 1075).toNat (m - leastNormal)

/-- The number nearest to `± significand · 10 ^ exponent`. Beyond 400 places the result is known
without computing the power. -/
def ofDecimal (negative : Bool) (significand : Nat) (exponent : Int) : Binary64 :=
  let places := ((Nat.toDigits 10 significand).length : Int) + exponent
  if significand = 0 then zero negative
  else if 400 < places then infinity negative
  else if places < -400 then zero negative
  else
    match exponent with
    | .ofNat e => ofRatio negative (significand * Nat.pow 10 e) 1
    | .negSucc e => ofRatio negative significand (Nat.pow 10 (e + 1))

def ofInt (n : Int) : Binary64 := ofRatio (decide (n < 0)) n.natAbs 1

def neg (x : Binary64) : Binary64 := ⟨x.bits ^^^ 0x8000000000000000⟩

def ratio? (x : Binary64) : Option (Int × Nat) :=
  match x.view with
  | .finite negative m q =>
      let (n, d) := scaled m 1 (-q)
      some (if negative then -(n : Int) else n, d)
  | _ => none

def equalsInt (x : Binary64) (n : Int) : Bool :=
  match x.ratio? with
  | some (a, d) => decide (a = n * d)
  | none => false

def sameValue (x y : Binary64) : Bool :=
  match x.view, y.view with
  | .nan, _ => false
  | .finite _ 0 _, .finite _ 0 _ => true
  | _, _ => decide (x = y)

def add (x y : Binary64) : Binary64 :=
  match x.ratio?, y.ratio? with
  | some (a, b), some (c, d) =>
      let n := a * d + c * b
      ofRatio (decide (n < 0)) n.natAbs (b * d)
  | none, _ => x
  | _, none => y

def mul (x y : Binary64) : Binary64 :=
  match x.ratio?, y.ratio? with
  | some (a, b), some (c, d) => ofRatio (x.isNegative != y.isNegative) (a * c).natAbs (b * d)
  | none, _ => x
  | _, none => y

end Binary64

end LocaleKeys
