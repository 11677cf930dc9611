import LocaleKeys.Config.Value
import LocaleKeys.Proofs.Store.Fresh
import LocaleKeys.Text.Blank
import Mathlib.Data.List.DropRight

/-!
# Trimmed texts

Trimming leaves a text without blanks at its ends (`hasBareEnds_trim`), and such a text alone
(`trim_of_hasBareEnds`). The texts of numbers have no blanks at all: they consist of digits and of a
few signs and letters (`Text.isProper_ofInt`, `Binary64.isProper_text`).
-/

namespace LocaleKeys

theorem CodePoint.isBlank_of_isDigit (c : Char) (h : c.isDigit = true) :
    (CodePoint.scalar c).isBlank = false := by
  have hc : 48 ≤ (CodePoint.scalar c).value ∧ (CodePoint.scalar c).value ≤ 57 := by
    rw [Char.isDigit, Bool.and_eq_true, decide_eq_true_eq, decide_eq_true_eq] at h
    exact h
  rw [← Bool.not_eq_true]
  intro hblank
  simp only [isBlank, Bool.or_eq_true, Bool.and_eq_true, decide_eq_true_eq, beq_iff_eq] at hblank
  omega

namespace Text

/-- Whether a text begins and ends with code points that are not blank, if there are any. -/
structure HasBareEnds (t : Text) : Prop where
  first : ∀ c ∈ t.head?, c.isBlank = false
  last : ∀ c ∈ t.getLast?, c.isBlank = false

theorem hasBareEnds_of_forall (t : Text) (h : ∀ c ∈ t, c.isBlank = false) : t.HasBareEnds where
  first c hc := h c (List.mem_of_mem_head? hc)
  last c hc := h c (List.mem_of_getLast? hc)

theorem trim_of_hasBareEnds (t : Text) (h : t.HasBareEnds) : t.trim = t := by
  have hfirst : t.dropWhile CodePoint.isBlank = t := by
    cases t with
    | nil => rfl
    | cons c t => exact List.dropWhile_cons_of_neg (by simp [h.first c rfl])
  have hlast : t.rdropWhile CodePoint.isBlank = t := by
    rw [List.rdropWhile_eq_self_iff]
    intro hne
    rw [Bool.not_eq_true]
    exact h.last _ (List.getLast?_eq_some_getLast hne)
  rw [trim, hfirst]
  exact hlast

theorem hasBareEnds_trim (t : Text) : t.trim.HasBareEnds := by
  have htrim : t.trim = (t.dropWhile CodePoint.isBlank).rdropWhile CodePoint.isBlank := rfl
  constructor
  · intro c hc
    obtain ⟨rest, hrest⟩ := List.rdropWhile_prefix CodePoint.isBlank (t.dropWhile CodePoint.isBlank)
    rw [← htrim] at hrest
    have hhead := List.head?_dropWhile_not CodePoint.isBlank t
    rw [← hrest, List.head?_append, hc] at hhead
    exact hhead
  · intro c hc
    obtain ⟨hne, rfl⟩ := List.mem_getLast?_eq_getLast (htrim ▸ hc)
    rw [← Bool.not_eq_true]
    exact List.rdropWhile_last_not _ _ hne

theorem trim_eq_nil_iff (t : Text) : t.trim = [] ↔ ∀ c ∈ t, c.isBlank = true := by
  have htrim : t.trim = (t.dropWhile CodePoint.isBlank).rdropWhile CodePoint.isBlank := rfl
  rw [htrim, List.rdropWhile_eq_nil_iff]
  constructor
  · intro h c hc
    rcases List.mem_append.1 (List.takeWhile_append_dropWhile ▸ hc :
      c ∈ t.takeWhile CodePoint.isBlank ++ t.dropWhile CodePoint.isBlank) with hc | hc
    · exact List.mem_takeWhile_imp hc
    · exact h c hc
  · exact fun h c hc => h c ((List.dropWhile_suffix _).subset hc)

end Text

structure Text.IsProper (t : Text) : Prop where
  ends : t.HasBareEnds
  ne_nil : t ≠ []

def IsBare (c : Char) : Prop := (CodePoint.scalar c).isBlank = false

instance decidableIsBare (c : Char) : Decidable (IsBare c) :=
  inferInstanceAs (Decidable ((CodePoint.scalar c).isBlank = false))

theorem Text.hasBareEnds_ofChars (cs : List Char) (h : ∀ c ∈ cs, IsBare c) :
    (Text.ofChars cs).HasBareEnds := by
  refine Text.hasBareEnds_of_forall _ fun c hc => ?_
  obtain ⟨d, hd, rfl⟩ := List.mem_map.1 hc
  exact h d hd

theorem Digits.isBare_of_mem_ofNat (n : Nat) (c : Char) (h : c ∈ Digits.ofNat 10 n) : IsBare c :=
  CodePoint.isBlank_of_isDigit c (Nat.isDigit_of_mem_toDigits (by decide) (by decide) h)

theorem Text.isProper_ofInt (n : Int) : (Text.ofInt n).IsProper := by
  have hne : ∀ m, Text.ofNat m ≠ [] := fun m h => Nat.toDigits_ne_nil (List.map_eq_nil_iff.1 h)
  cases n with
  | ofNat m => exact ⟨Text.hasBareEnds_ofChars _ (Digits.isBare_of_mem_ofNat m), hne m⟩
  | negSucc m =>
      refine ⟨Text.hasBareEnds_ofChars ('-' :: Digits.ofNat 10 (m + 1)) ?_, List.cons_ne_nil _ _⟩
      exact List.forall_mem_cons.2 ⟨rfl, Digits.isBare_of_mem_ofNat (m + 1)⟩

namespace Binary64

theorem isBare_of_mem_exponentText (e : Int) (c : Char) (h : c ∈ exponentText e) : IsBare c := by
  rcases List.mem_cons.1 h with rfl | h
  · split <;> rfl
  · exact CodePoint.isBlank_of_isDigit c (Digits.isDigit_of_mem_padded 2 _ c h)

/-- Laying digits out adds signs, a point and zeros. -/
theorem Decimal.isBare_of_mem_layout (x : Decimal) (hx : ∀ c ∈ x.digits, IsBare c) :
    ∀ c ∈ x.layout, IsBare c := by
  have hzeros : ∀ n, ∀ c ∈ List.replicate n '0', IsBare c := fun n c hc => by
    rw [List.eq_of_mem_replicate hc]
    rfl
  have htake : ∀ n, ∀ c ∈ x.digits.take n, IsBare c := fun n c hc => hx c (List.mem_of_mem_take hc)
  have hdrop : ∀ n, ∀ c ∈ x.digits.drop n, IsBare c := fun n c hc => hx c (List.mem_of_mem_drop hc)
  have hzero : IsBare '0' := rfl
  have hpoint : IsBare '.' := rfl
  unfold layout
  simp only
  split
  · split
    · simp only [List.forall_mem_cons, List.forall_mem_append]
      exact ⟨hzero, hpoint, hzeros _, hx⟩
    · split
      · simp only [List.forall_mem_cons, List.forall_mem_append]
        exact ⟨⟨hx, hzeros _⟩, hpoint, hzero, fun _ h => nomatch h⟩
      · simp only [List.forall_mem_cons, List.forall_mem_append]
        exact ⟨htake _, hpoint, hdrop _⟩
  · simp only [List.forall_mem_cons, List.forall_mem_append]
    refine ⟨⟨htake _, ?_⟩, rfl, isBare_of_mem_exponentText _⟩
    split
    · exact fun _ h => nomatch h
    · exact List.forall_mem_cons.2 ⟨hpoint, hdrop _⟩

theorem Decimal.layout_ne_nil (x : Decimal) : x.layout ≠ [] := by
  unfold layout
  simp only
  split
  · split
    · exact List.cons_ne_nil _ _
    · split <;> simp
  · simp

theorem isProper_text (x : Binary64) : x.text.IsProper := by
  have hsigned : ∀ negative cs, (∀ c ∈ cs, IsBare c) → cs ≠ [] →
      (Text.ofChars (signed negative cs)).IsProper := by
    intro negative cs hcs hne
    cases negative with
    | true =>
        refine ⟨Text.hasBareEnds_ofChars _ ?_, List.cons_ne_nil _ _⟩
        exact List.forall_mem_cons.2 ⟨rfl, hcs⟩
    | false => exact ⟨Text.hasBareEnds_ofChars _ hcs, fun h => hne (List.map_eq_nil_iff.1 h)⟩
  have hword : ∀ cs : List Char, cs.all (IsBare ·) = true → ∀ c ∈ cs, IsBare c :=
    fun cs h c hc => of_decide_eq_true (List.all_eq_true.1 h c hc)
  unfold text
  split
  · exact hsigned false _ (hword _ (by decide)) (by decide)
  · exact hsigned _ _ (hword _ (by decide)) (by decide)
  · exact hsigned _ _ (hword _ (by decide)) (by decide)
  · refine hsigned _ _ (Decimal.isBare_of_mem_layout _ fun c hc => ?_) (Decimal.layout_ne_nil _)
    have hmem := (List.dropWhile_suffix _).subset (List.mem_reverse.1 hc)
    exact Digits.isBare_of_mem_ofNat _ c (List.mem_reverse.1 hmem)

end Binary64

theorem Value.isProper_of_message_int (n : Int) (t : Text) (h : (int n).message = .ok t) :
    t.IsProper := by
  rw [message] at h
  split at h
  · exact nomatch h
  · exact Except.ok.inj h ▸ Text.isProper_ofInt n

theorem Value.isProper_of_message_float (x : Binary64) (t : Text)
    (h : (float x).message = .ok t) : t.IsProper :=
  Except.ok.inj h ▸ x.isProper_text

end LocaleKeys
