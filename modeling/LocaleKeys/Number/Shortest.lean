import LocaleKeys.Number.Binary64
import LocaleKeys.Number.Digits

/-!
# The shortest text of a number

`shortest` gives the fewest decimal digits that are read back as the same number, and of those the
ones nearest to it. It tries one digit, then two, and so on: on the grid of decimals with that many
digits only the two neighbours of the number can be read back as it, so two tests decide whether the
grid will do. Seventeen digits always do.

`Binary64.text` lays the digits out: positional from `0.0001` up to below `10 ^ 16`, with at least
one digit after the point, and with a two-digit exponent elsewhere.
-/

namespace LocaleKeys

namespace Binary64

/-- A decimal `0.d₁d₂… · 10 ^ point`. -/
structure Decimal where
  digits : List Char
  point : Int
deriving DecidableEq, Repr

def reachesPower (n d : Nat) : Int → Bool
  | .ofNat k => decide (Nat.pow 10 k * d ≤ n)
  | .negSucc k => decide (d ≤ n * Nat.pow 10 (k + 1))

/-- The least `p` from `p` on, at most `fuel` further, with `n / d < 10 ^ p`. -/
def pointFrom (n d : Nat) : (fuel : Nat) → Int → Int
  | 0, p => p
  | fuel + 1, p => if reachesPower n d p then pointFrom n d fuel (p + 1) else p

def pointOf (n d : Nat) : Int :=
  pointFrom n d 4 (((Nat.log2 n : Int) - Nat.log2 d) * 30103 / 100000 - 1)

def inUnits (n d : Nat) : Int → Nat × Nat
  | .ofNat k => (n, d * Nat.pow 10 k)
  | .negSucc k => (n * Nat.pow 10 (k + 1), d)

/-- The bounds of what is read as `significand · 2 ^ exponent`, in quarters of the last place, and
whether the bounds themselves are. -/
structure Interval where
  low : Nat
  high : Nat
  closed : Bool

def Interval.of (significand : Nat) (exponent : Int) : Interval :=
  { low :=
      if significand = leastNormal ∧ -1074 < exponent then 4 * significand - 1
      else 4 * significand - 2
    high := 4 * significand + 2
    closed := significand % 2 = 0 }

/-- Whether the decimal `c · 10 ^ k` lies in an interval whose quarters are `2 ^ q`. -/
def Interval.holds (i : Interval) (q : Int) (c : Nat) (k : Int) : Bool :=
  let (n, d) := match k with
    | .ofNat k => (c * Nat.pow 10 k, 1)
    | .negSucc k => (c, Nat.pow 10 (k + 1))
  let (n, d) := scaled n d q
  if i.closed then i.low * d ≤ n && n ≤ i.high * d else i.low * d < n && n < i.high * d

/-- The first grid, from `count` digits on, with a decimal in the interval, and that decimal. -/
def search (m : Nat) (q : Int) (point : Int) : (fuel count : Nat) → Nat × Int
  | 0, count => (m, point - count)
  | fuel + 1, count =>
      let i := Interval.of m q
      let k := point - count
      let (n, d) := scaled m 1 (-q)
      let (n, d) := inUnits n d k
      let c := n / d
      let lower := i.holds (q - 2) c k
      let upper := i.holds (q - 2) (c + 1) k
      if lower && upper then
        let r := n % d
        (if 2 * r < d ∨ (2 * r = d ∧ c % 2 = 0) then c else c + 1, k)
      else if lower then (c, k)
      else if upper then (c + 1, k)
      else search m q point fuel (count + 1)

/-- The fewest digits that are read back as `m · 2 ^ q`. -/
def shortest (m : Nat) (q : Int) : Decimal :=
  let (n, d) := scaled m 1 (-q)
  let (c, k) := search m q (pointOf n d) 17 1
  let ds := Digits.ofNat 10 c
  { digits := (ds.reverse.dropWhile (· = '0')).reverse
    point := k + ds.length }

def exponentText (e : Int) : List Char :=
  (if e < 0 then '-' else '+') :: Digits.padded 10 2 e.natAbs

def Decimal.layout (x : Decimal) : List Char :=
  let n := x.digits.length
  if -4 < x.point ∧ x.point ≤ 16 then
    if x.point ≤ 0 then '0' :: '.' :: (List.replicate (-x.point).toNat '0' ++ x.digits)
    else
      let p := x.point.toNat
      if n ≤ p then x.digits ++ List.replicate (p - n) '0' ++ ['.', '0']
      else x.digits.take p ++ '.' :: x.digits.drop p
  else
    let fraction := if n ≤ 1 then [] else '.' :: x.digits.drop 1
    x.digits.take 1 ++ fraction ++ 'e' :: exponentText (x.point - 1)

def signed (negative : Bool) (cs : List Char) : List Char := if negative then '-' :: cs else cs

def text (x : Binary64) : Text :=
  Text.ofChars <|
    match x.view with
    | .nan => ['n', 'a', 'n']
    | .infinite negative => signed negative ['i', 'n', 'f']
    | .finite negative 0 _ => signed negative ['0', '.', '0']
    | .finite negative m q => signed negative (shortest m q).layout

end Binary64

end LocaleKeys
