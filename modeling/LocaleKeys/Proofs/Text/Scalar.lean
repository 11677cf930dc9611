import LocaleKeys.Text.Basic

/-!
# Texts without lone surrogates

A text is *scalar* if it has no lone surrogate. These are the texts that are lists of characters:
`Text.ofChars` and `Text.toChars` are inverse to each other on them.
-/

namespace LocaleKeys

theorem CodePoint.ofNat?_toNat (c : Char) : CodePoint.ofNat? c.toNat = some (.scalar c) := by
  have hvalid : c.toNat.isValidChar := c.valid
  rw [CodePoint.ofNat?, dif_pos hvalid]
  exact congrArg (fun c => some (CodePoint.scalar c)) (Char.ext rfl)

namespace Text

theorem isScalar_append (s t : Text) : (s ++ t).isScalar = (s.isScalar && t.isScalar) :=
  List.all_append

theorem isScalar_ofChars (cs : List Char) : (ofChars cs).isScalar = true := by
  simp [isScalar, ofChars, CodePoint.isScalar]

theorem isScalar_ofString (s : String) : (ofString s).isScalar = true := isScalar_ofChars s.toList

theorem isScalar_iff (t : Text) : t.isScalar = true ↔ ∀ c ∈ t, c.isScalar = true :=
  List.all_eq_true

@[simp] theorem toChars_nil : toChars [] = [] := rfl

@[simp] theorem toChars_scalar_cons (c : Char) (t : Text) :
    toChars (.scalar c :: t) = c :: toChars t := rfl

@[simp] theorem toChars_append (s t : Text) : toChars (s ++ t) = toChars s ++ toChars t :=
  List.map_append

@[simp] theorem toChars_ofChars (cs : List Char) : toChars (ofChars cs) = cs := by
  induction cs with
  | nil => rfl
  | cons c cs ih => exact congrArg (c :: ·) ih

theorem ofChars_toChars (t : Text) (h : t.isScalar = true) : ofChars (toChars t) = t := by
  induction t with
  | nil => rfl
  | cons c t ih =>
      rw [isScalar, List.all_cons, Bool.and_eq_true] at h
      cases c with
      | scalar c => exact congrArg (CodePoint.scalar c :: ·) (ih h.2)
      | surrogate u => exact absurd h.1 (by simp [CodePoint.isScalar])

theorem ofChars_append (cs ds : List Char) : ofChars (cs ++ ds) = ofChars cs ++ ofChars ds :=
  List.map_append

theorem length_toChars (t : Text) : t.toChars.length = t.length := List.length_map _

end Text

end LocaleKeys
