import LocaleKeys.Text.Basic

/-!
# Paths

Paths are texts with `/` between the segments. `normal` removes empty segments, `.` and `..` without
looking at any file. A path that begins with exactly two slashes keeps both, any other number
becomes one.
-/

namespace LocaleKeys

namespace Path

def slash : CodePoint := '/'

def dot : Text := "."

def dotDot : Text := ".."

def isAbsolute : Text → Bool
  | [] => false
  | c :: _ => c = slash

/-- The path `p` seen from the directory `base`; an absolute path does not depend on it. -/
def join (base p : Text) : Text :=
  if isAbsolute p then p
  else if base.isEmpty || base.getLast? = some slash then base ++ p
  else base ++ slash :: p

def base (p : Text) : Text := (p.reverse.takeWhile (· ≠ slash)).reverse

/-- What precedes the last slash, without the slashes at its end unless it consists of them. -/
def directory (p : Text) : Text :=
  let head := (p.reverse.dropWhile (· ≠ slash)).reverse
  let trimmed := (head.reverse.dropWhile (· = slash)).reverse
  if trimmed.isEmpty then head else trimmed

/-- How many slashes a normal path begins with. -/
def leading (p : Text) : Nat :=
  if isAbsolute p then
    if isAbsolute (p.drop 1) && !isAbsolute (p.drop 2) then 2 else 1
  else 0

/-- Adds a segment to the segments so far, the last one first. Above the top of an absolute path
there is nothing; above the top of a relative one `..` stays. -/
def push (rooted : Bool) (stack : List Text) (segment : Text) : List Text :=
  if segment.isEmpty || segment = dot then stack
  else if segment = dotDot then
    match stack with
    | [] => if rooted then [] else [segment]
    | top :: below => if top = dotDot then segment :: stack else below
  else segment :: stack

def segments (p : Text) : List Text :=
  ((Text.split slash p).foldl (push (isAbsolute p)) []).reverse

/-- The normal form of a path; that of the empty path is `.`. -/
def normal (p : Text) : Text :=
  let q := Text.fill (leading p) slash ++ Text.join [slash] (segments p)
  if q.isEmpty then dot else q

def absolute (here p : Text) : Text := normal (join here p)

end Path

end LocaleKeys
