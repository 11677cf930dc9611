/-!
# Text

A `Text` is a list of code points. Besides the Unicode scalar values it may hold *lone surrogates*:
an escape such as `\ud800` in a document names one, and a key spelled that way has to travel through
the whole program unchanged until the moment it is written as bytes, where it is refused
(`LocaleKeys.Text.Utf8`).

Order is order by code point, which is the order in which directory entries are enumerated. `split`
always gives at least one segment, and `join` undoes it (`join_split`).
-/

namespace LocaleKeys

/-- A Unicode scalar value, or one of the 2048 surrogates standing alone. -/
inductive CodePoint where
  | scalar (c : Char)
  | surrogate (u : Fin 2048)
deriving DecidableEq, Repr

namespace CodePoint

instance : Inhabited CodePoint := ⟨scalar ' '⟩

instance : Coe Char CodePoint := ⟨scalar⟩

def value : CodePoint → Nat
  | scalar c => c.toNat
  | surrogate u => 0xD800 + u.val

def ofNat? (n : Nat) : Option CodePoint :=
  if h : n.isValidChar then some (scalar (Char.ofNatAux n h))
  else if 0xD800 ≤ n ∧ n ≤ 0xDFFF then some (surrogate (Fin.ofNat 2048 (n - 0xD800)))
  else none

def isScalar : CodePoint → Bool
  | scalar _ => true
  | surrogate _ => false

end CodePoint

/-- A string whose characters are code points, lone surrogates included. -/
abbrev Text := List CodePoint

namespace Text

def ofChars (cs : List Char) : Text := cs.map CodePoint.scalar

def ofString (s : String) : Text := ofChars s.toList

instance : Coe String Text := ⟨ofString⟩

def toChars? : Text → Option (List Char)
  | [] => some []
  | .scalar c :: t => (toChars? t).map (c :: ·)
  | .surrogate _ :: _ => none

/-- The characters of a text, with U+FFFD in the place of every lone surrogate. -/
def toChars (t : Text) : List Char :=
  t.map fun
    | .scalar c => c
    | .surrogate _ => '\uFFFD'

def isScalar (t : Text) : Bool := t.all CodePoint.isScalar

/-- Order by code point, a proper beginning first. -/
def le : Text → Text → Bool
  | [], _ => true
  | _ :: _, [] => false
  | a :: s, b :: t =>
      if a.value < b.value then true
      else if b.value < a.value then false
      else le s t

def join (sep : Text) : List Text → Text
  | [] => []
  | [t] => t
  | t :: u :: ts => t ++ sep ++ join sep (u :: ts)

/-- The segments between the occurrences of `sep`; one more than there are occurrences. -/
def split (sep : CodePoint) : Text → List Text
  | [] => [[]]
  | c :: t =>
      if c = sep then [] :: split sep t
      else
        match split sep t with
        | [] => [[c]]
        | s :: ss => (c :: s) :: ss

theorem split_ne_nil (sep : CodePoint) (t : Text) : split sep t ≠ [] := by
  cases t with
  | nil => simp [split]
  | cons c t =>
      unfold split
      split
      · simp
      · split <;> simp

theorem join_split (sep : CodePoint) (t : Text) : join [sep] (split sep t) = t := by
  induction t with
  | nil => rfl
  | cons c t ih =>
      unfold split
      split
      · next hc =>
          cases hs : split sep t with
          | nil => exact absurd hs (split_ne_nil sep t)
          | cons s ss => rw [join, ← hs, ih, hc]; rfl
      · next hc =>
          cases hs : split sep t with
          | nil => exact absurd hs (split_ne_nil sep t)
          | cons s ss =>
              rw [hs] at ih
              cases ss with
              | nil => simpa [join] using ih
              | cons u us => simpa [join] using ih

def cut (sep : CodePoint) : Text → Text × Option Text
  | [] => ([], none)
  | c :: t => if c = sep then ([], some t) else ((c :: (cut sep t).1), (cut sep t).2)

def fill (n : Nat) (c : CodePoint) : Text := List.replicate n c

end Text

end LocaleKeys
