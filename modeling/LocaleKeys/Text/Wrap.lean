import LocaleKeys.Text.Basic

/-!
# Filling lines

A paragraph is cut into pieces, runs of spaces and words, and the pieces are laid on lines of a
given width. A word with a hyphen between two letters on either side may be cut after the hyphen. A
piece that is wider than a line is cut where the line ends, or after the last hyphen that fits. No
line begins or ends with spaces, the first one apart.
-/

namespace LocaleKeys

namespace Wrap

def space : CodePoint := ' '

def hyphen : CodePoint := '-'

def isLetter : CodePoint → Bool
  | .scalar c => c.isAlpha
  | .surrogate _ => false

/-- Whether a word may be cut between the part `done`, given in reverse, and the rest. -/
def mayCut (done rest : Text) : Bool :=
  match done, rest with
  | h :: b :: a :: _, c :: d :: r =>
      h = hyphen && isLetter a && isLetter b && isLetter c &&
        (isLetter d || (d = hyphen && (r.head?.map isLetter).getD false))
  | _, _ => false

def piecesFrom (done : Text) : Text → List Text
  | [] => if done.isEmpty then [] else [done.reverse]
  | c :: t =>
      let ends :=
        match done with
        | [] => false
        | d :: _ => (decide (d = space) != decide (c = space)) || mayCut done (c :: t)
      if ends then done.reverse :: piecesFrom [c] t else piecesFrom (c :: done) t

def pieces (t : Text) : List Text := piecesFrom [] t

def isSpaces (t : Text) : Bool := t.all (· = space)

def fitting (room : Nat) : List Text → List Text × List Text
  | [] => ([], [])
  | p :: ps =>
      if p.length ≤ room then
        let (line, rest) := fitting (room - p.length) ps
        (p :: line, rest)
      else ([], p :: ps)

def cutAt (room : Nat) (piece : Text) : Nat :=
  let before := (piece.take room).reverse.dropWhile (· ≠ hyphen)
  let n := before.length
  if 1 < n && (piece.take (n - 1)).any (· ≠ hyphen) then n else room

def line (width : Nat) (ps : List Text) : Text × List Text :=
  let (taken, rest) := fitting width ps
  let used := taken.flatten.length
  let (taken, rest) :=
    match rest with
    | p :: more =>
        if width < p.length then
          let n := if width = 0 then 1 else cutAt (width - used) p
          (taken ++ [p.take n], p.drop n :: more)
        else (taken, rest)
    | [] => (taken, [])
  let taken :=
    match taken.getLast? with
    | some p => if isSpaces p then taken.dropLast else taken
    | none => taken
  (taken.flatten, rest)

/-- Lines of a width; `fuel` is more than the number of code points in the pieces. -/
def linesFrom (width : Nat) (isFirst : Bool) : (fuel : Nat) → List Text → List Text
  | 0, _ => []
  | fuel + 1, ps =>
      let ps :=
        match ps with
        | p :: rest => if isSpaces p && !isFirst then rest else ps
        | [] => []
      if ps.isEmpty then []
      else
        let (l, rest) := line width ps
        if l.isEmpty then linesFrom width isFirst fuel rest
        else l :: linesFrom width false fuel rest

def lines (width : Nat) (t : Text) : List Text := linesFrom width true (2 * t.length + 2) (pieces t)

end Wrap

end LocaleKeys
