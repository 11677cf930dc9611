import LocaleKeys.Proofs.Path.Joining
import LocaleKeys.Proofs.Text.Scalar
import LocaleKeys.Store.Replacement
import Mathlib.Data.List.Nodup
import Mathlib.Data.List.Perm.Subperm

/-!
# Fresh names

A fresh name is made of the first number that is not in use. As different numbers make different
names, one of the first `taken.length + 1` of them is free, so that the search ends with a name that
is not taken (`freshName_not_mem`). Which one it is depends on nothing but the candidates in use
(`freshName_congr`).
-/

namespace LocaleKeys

namespace Digits

theorem ofDigitChars_padded (width n : Nat) :
    Nat.ofDigitChars 10 (padded 10 width n) 0 = n := by
  rw [padded, ofNat, Nat.ofDigitChars_append, Nat.ofDigitChars_replicate_zero, Nat.mul_zero,
    Nat.ofDigitChars_ten_toDigits]

theorem padded_injective (width : Nat) : Function.Injective (padded 10 width) := by
  intro m n h
  rw [← ofDigitChars_padded width m, h, ofDigitChars_padded]

theorem isDigit_of_mem_padded (width n : Nat) (c : Char) (h : c ∈ padded 10 width n) :
    c.isDigit = true := by
  rcases List.mem_append.1 h with h | h
  · rw [List.eq_of_mem_replicate h]
    rfl
  · exact Nat.isDigit_of_mem_toDigits (by decide) (by decide) h

def eightDigitLimit : Nat := 100000000

theorem length_padded (width n : Nat) :
    (padded 10 width n).length = max width (Nat.toDigits 10 n).length := by
  rw [padded, ofNat, List.length_append, List.length_replicate]
  omega

theorem length_padded_of_lt (n : Nat) (h : n < eightDigitLimit) :
    (padded 10 8 n).length = 8 := by
  have hlimit : eightDigitLimit = 10 ^ 8 := rfl
  have hdigits : (Nat.toDigits 10 n).length ≤ 8 :=
    (Nat.length_toDigits_le_iff (by decide) (by decide)).2 (hlimit ▸ h)
  rw [length_padded]
  omega

theorem length_padded_mono (width m n : Nat) (h : m ≤ n) :
    (padded 10 width m).length ≤ (padded 10 width n).length := by
  have hpos : 0 < (Nat.toDigits 10 n).length := List.length_pos_iff.2 Nat.toDigits_ne_nil
  have hn : n < 10 ^ (Nat.toDigits 10 n).length :=
    (Nat.length_toDigits_le_iff (by decide) hpos).1 (Nat.le_refl _)
  have hm : (Nat.toDigits 10 m).length ≤ (Nat.toDigits 10 n).length :=
    (Nat.length_toDigits_le_iff (by decide) hpos).2 (Nat.lt_of_le_of_lt h hn)
  rw [length_padded, length_padded]
  omega

end Digits

namespace Text

theorem ofChars_injective : Function.Injective ofChars := by
  intro cs ds h
  rw [← toChars_ofChars cs, h, toChars_ofChars]

end Text

namespace Store

def numbered (make : Text → Text) (k : Nat) : Text := make (Text.ofChars (Digits.padded 10 8 k))

theorem numbered_injective (make : Text → Text) (hmake : Function.Injective make) :
    Function.Injective (numbered make) :=
  (hmake.comp Text.ofChars_injective).comp (Digits.padded_injective 8)

theorem exists_freshName_go_eq (taken : List Text) (make : Text → Text) (fuel k : Nat) :
    ∃ j, j ≤ k + fuel ∧ freshName.go taken make fuel k = numbered make j ∧
      ∀ i, k ≤ i → i < j → numbered make i ∈ taken := by
  induction fuel generalizing k with
  | zero => exact ⟨k, Nat.le_refl k, rfl, fun i _ _ => by omega⟩
  | succ fuel ih =>
      rw [freshName.go]
      split
      · next hk =>
          obtain ⟨j, hj, hgo, hbefore⟩ := ih (k + 1)
          refine ⟨j, by omega, hgo, fun i hki hij => ?_⟩
          rcases Nat.lt_or_eq_of_le hki with hki | rfl
          · exact hbefore i hki hij
          · exact List.contains_iff_mem.1 hk
      · exact ⟨k, by omega, rfl, fun i _ _ => by omega⟩

/-- A fresh name is made of the first number for which all numbers before it are in use. -/
theorem exists_freshName_eq (taken : List Text) (make : Text → Text) :
    ∃ j, j ≤ taken.length ∧ freshName taken make = numbered make j ∧
      ∀ i, i < j → numbered make i ∈ taken := by
  obtain ⟨j, hj, hgo, hbefore⟩ := exists_freshName_go_eq taken make taken.length 0
  exact ⟨j, by omega, hgo, fun i hi => hbefore i i.zero_le hi⟩

theorem numbered_mem_of_freshName_go_mem (taken : List Text) (make : Text → Text) (fuel k : Nat)
    (h : freshName.go taken make fuel k ∈ taken) :
    ∀ j, k ≤ j → j ≤ k + fuel → numbered make j ∈ taken := by
  induction fuel generalizing k with
  | zero =>
      intro j hkj hjk
      obtain rfl : j = k := by omega
      exact h
  | succ fuel ih =>
      rw [freshName.go] at h
      intro j hkj hjk
      split at h
      · next hk =>
          by_cases hj : j = k
          · rw [hj]
            exact List.contains_iff_mem.1 hk
          · exact ih (k + 1) h j (by omega) (by omega)
      · next hk => exact absurd (List.contains_iff_mem.2 h) hk

theorem freshName_not_mem (taken : List Text) (make : Text → Text)
    (hmake : Function.Injective make) : freshName taken make ∉ taken := by
  intro hmem
  -- Otherwise all candidates would be taken, and there is one more of them than taken names.
  have hall := numbered_mem_of_freshName_go_mem taken make taken.length 0 hmem
  have hnodup : ((List.range (taken.length + 1)).map (numbered make)).Nodup :=
    List.nodup_range.map (numbered_injective make hmake)
  have hsub : (List.range (taken.length + 1)).map (numbered make) ⊆ taken := by
    intro name hname
    obtain ⟨j, hj, rfl⟩ := List.mem_map.1 hname
    rw [List.mem_range] at hj
    exact hall j (by omega) (by omega)
  have hlength := (List.subperm_of_subset hnodup hsub).length_le
  rw [List.length_map, List.length_range] at hlength
  omega

theorem freshName_congr (taken taken' : List Text) (make : Text → Text)
    (hmake : Function.Injective make)
    (h : ∀ k, numbered make k ∈ taken ↔ numbered make k ∈ taken') :
    freshName taken make = freshName taken' make := by
  obtain ⟨j, -, hj, hbefore⟩ := exists_freshName_eq taken make
  obtain ⟨j', -, hj', hbefore'⟩ := exists_freshName_eq taken' make
  have hfree := freshName_not_mem taken make hmake
  have hfree' := freshName_not_mem taken' make hmake
  rw [hj] at hfree ⊢
  rw [hj'] at hfree' ⊢
  -- Each of the two numbers is free on both sides, so that none of them comes before the other.
  rcases Nat.lt_trichotomy j j' with hlt | heq | hlt
  · exact absurd ((h j).2 (hbefore' j hlt)) hfree
  · rw [heq]
  · exact absurd ((h j').1 (hbefore j' hlt)) hfree'

theorem eq_scalar_of_mem_ofChars_padded (k : Nat) (c : CodePoint)
    (h : c ∈ Text.ofChars (Digits.padded 10 8 k)) :
    ∃ d : Char, c = .scalar d ∧ d.isDigit = true := by
  obtain ⟨d, hd, rfl⟩ := List.mem_map.1 h
  exact ⟨d, rfl, Digits.isDigit_of_mem_padded 8 k d hd⟩

theorem isNameable_of_isDigit (d : Char) (h : d.isDigit = true) :
    Name.isNameable (.scalar d) = true := by
  refine decide_eq_true ?_
  intro hnul
  rw [CodePoint.scalar.inj hnul] at h
  exact absurd h (by decide)

theorem byteLength_ofChars_of_isDigit (cs : List Char) (h : ∀ c ∈ cs, c.isDigit = true) :
    Name.byteLength (Text.ofChars cs) = cs.length := by
  induction cs with
  | nil => rfl
  | cons c cs ih =>
      have hc := h c List.mem_cons_self
      have hsize : c.utf8Size = 1 := by
        have hle : c.val ≤ '9'.val := by
          simp only [Char.isDigit, Bool.and_eq_true, decide_eq_true_eq] at hc
          exact hc.2
        have h127 : c.val ≤ 127 := UInt32.le_trans hle (by decide)
        simp [Char.utf8Size, h127]
      have ih := ih fun d hd => h d (List.mem_cons_of_mem c hd)
      have hcons : Text.ofChars (c :: cs) = .scalar c :: Text.ofChars cs := rfl
      rw [hcons, Name.byteLength, ih, hsize, List.length_cons, Nat.add_comm]

theorem byteLength_ofChars_padded (k : Nat) :
    Name.byteLength (Text.ofChars (Digits.padded 10 8 k)) = (Digits.padded 10 8 k).length :=
  byteLength_ofChars_of_isDigit _ (Digits.isDigit_of_mem_padded 8 k)

theorem temporaryName_injective (name : Text) : Function.Injective (temporaryName name) := by
  intro s t h
  exact List.append_cancel_left (List.append_cancel_right h)

theorem slash_not_mem_ofChars_padded (k : Nat) :
    Path.slash ∉ Text.ofChars (Digits.padded 10 8 k) := by
  intro h
  obtain ⟨d, hd, hdigit⟩ := eq_scalar_of_mem_ofChars_padded k _ h
  rw [← CodePoint.scalar.inj hd] at hdigit
  exact absurd hdigit (by decide)

theorem isNameable_of_mem_ofChars_padded (k : Nat) :
    ∀ c ∈ Text.ofChars (Digits.padded 10 8 k), Name.isNameable c = true := by
  intro c hc
  obtain ⟨d, rfl, hdigit⟩ := eq_scalar_of_mem_ofChars_padded k c hc
  exact isNameable_of_isDigit d hdigit

theorem isEntryName_temporaryName (name : Text) (hname : Path.slash ∉ name) (k : Nat) :
    Path.IsEntryName (numbered (temporaryName name) k) := by
  refine Path.isEntryName_of_length _ ?_ ?_
  · have htmp : (Text.ofString ".tmp").length = 4 := rfl
    simp only [numbered, temporaryName, List.length_append]
    omega
  · intro h
    simp only [numbered, temporaryName, List.mem_append] at h
    rcases h with (((h | h) | h) | h) | h
    · exact absurd h (by decide)
    · exact hname h
    · exact absurd h (by decide)
    · exact slash_not_mem_ofChars_padded k h
    · exact absurd h (by decide)

theorem isNameable_of_mem_temporaryName (name : Text)
    (hname : ∀ c ∈ name, Name.isNameable c = true) (k : Nat) :
    ∀ c ∈ numbered (temporaryName name) k, Name.isNameable c = true := by
  intro c h
  simp only [numbered, temporaryName, List.mem_append] at h
  have hdot : ∀ c ∈ Text.ofString ".", Name.isNameable c = true := by decide
  have htmp : ∀ c ∈ Text.ofString ".tmp", Name.isNameable c = true := by decide
  rcases h with (((h | h) | h) | h) | h
  · exact hdot c h
  · exact hname c h
  · exact hdot c h
  · exact isNameable_of_mem_ofChars_padded k c h
  · exact htmp c h

theorem head?_numbered_temporaryName (name : Text) (k : Nat) :
    (numbered (temporaryName name) k).head? = some (.scalar '.') := rfl

def temporaryExcess (k : Nat) : Nat := 6 + (Digits.padded 10 8 k).length

theorem temporaryExcess_of_lt (k : Nat) (h : k < Digits.eightDigitLimit) :
    temporaryExcess k = 14 := by
  rw [temporaryExcess, Digits.length_padded_of_lt k h]

theorem temporaryExcess_mono (k n : Nat) (h : k ≤ n) : temporaryExcess k ≤ temporaryExcess n :=
  Nat.add_le_add_left (Digits.length_padded_mono 8 k n h) 6

theorem byteLength_temporaryName (name : Text) (k : Nat) :
    Name.byteLength (numbered (temporaryName name) k) =
      Name.byteLength name + temporaryExcess k := by
  have hdot : Name.byteLength (Text.ofString ".") = 1 := by decide
  have htmp : Name.byteLength (Text.ofString ".tmp") = 4 := by decide
  rw [numbered, temporaryName, Name.byteLength_append, Name.byteLength_append,
    Name.byteLength_append, Name.byteLength_append, byteLength_ofChars_padded k, hdot, htmp,
    temporaryExcess]
  omega

theorem byteLength_lt_byteLength_temporaryName (name : Text) (k : Nat) :
    Name.byteLength name < Name.byteLength (numbered (temporaryName name) k) := by
  rw [byteLength_temporaryName, temporaryExcess]
  omega

end Store

end LocaleKeys
