import LocaleKeys.Number.Shortest

/-!
# Decimal text of a given length

A finite number with a given count of decimals, or with a given count of significant digits. The
exact value is rounded to the nearest decimal of that length, a tie to the even one.
-/

namespace LocaleKeys

namespace Binary64

/-- The digits of `m · 2 ^ q` in units of `10 ^ -places`. -/
def digitsAt (m : Nat) (q places : Int) : List Char :=
  let (n, d) := scaled m 1 (-q)
  let (n, d) := inUnits n d (-places)
  Digits.ofNat 10 (roundDiv n d)

def fixed (m : Nat) (q : Int) (places : Nat) : List Char × List Char :=
  let ds := digitsAt m q places
  let ds := List.replicate (places + 1 - ds.length) '0' ++ ds
  (ds.take (ds.length - places), ds.drop (ds.length - places))

def significant (m : Nat) (q : Int) (count : Nat) : Decimal :=
  if m = 0 then ⟨List.replicate count '0', 1⟩
  else
    let (n, d) := scaled m 1 (-q)
    let point := pointOf n d
    let ds := digitsAt m q (count - point)
    if count < ds.length then ⟨ds.take count, point + 1⟩ else ⟨ds, point⟩

end Binary64

end LocaleKeys
