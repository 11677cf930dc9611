import LocaleKeys.Text.Basic

/-!
# The order of texts

The order by code point is a total order, so that a list of names has exactly one sorted form: names
that are left out before sorting or after it leave the same list (`filter_mergeSort_le`), and which
name comes first depends on nothing but what names there are (`head?_mergeSort_le_eq_some_iff`).
-/

namespace LocaleKeys

theorem CodePoint.value_injective (c d : CodePoint) (h : c.value = d.value) : c = d := by
  cases c with
  | scalar c =>
      cases d with
      | scalar d => exact congrArg scalar (Char.toNat_inj.1 h)
      | surrogate v =>
          have hc : c.toNat.isValidChar := c.valid
          have hv := v.isLt
          rw [value, value] at h
          rw [Nat.isValidChar] at hc
          omega
  | surrogate u =>
      cases d with
      | scalar d =>
          have hd : d.toNat.isValidChar := d.valid
          have hu := u.isLt
          rw [value, value] at h
          rw [Nat.isValidChar] at hd
          omega
      | surrogate v =>
          rw [value, value] at h
          exact congrArg surrogate (Fin.ext (by omega))

namespace Text

theorem le_cons_iff (a b : CodePoint) (s t : Text) :
    le (a :: s) (b :: t) = true ↔ a.value < b.value ∨ a.value = b.value ∧ le s t = true := by
  rw [le]
  split
  · next h => exact iff_of_true rfl (.inl h)
  · next h =>
      split
      · next h' =>
          refine iff_of_false (by simp) ?_
          rintro (h'' | ⟨h'', -⟩) <;> omega
      · next h' =>
          have heq : a.value = b.value := by omega
          simp [heq]

theorem le_trans (s t u : Text) (hst : le s t = true) (htu : le t u = true) : le s u = true := by
  induction s generalizing t u with
  | nil => rfl
  | cons a s ih =>
      cases t with
      | nil => exact nomatch hst
      | cons b t =>
          cases u with
          | nil => exact nomatch htu
          | cons c u =>
              rw [le_cons_iff] at hst htu ⊢
              rcases hst with hab | ⟨hab, hst⟩
              · rcases htu with hbc | ⟨hbc, -⟩
                · exact .inl (Nat.lt_trans hab hbc)
                · exact .inl (hbc ▸ hab)
              · rcases htu with hbc | ⟨hbc, htu⟩
                · exact .inl (hab ▸ hbc)
                · exact .inr ⟨hab.trans hbc, ih t u hst htu⟩

theorem le_total (s t : Text) : (le s t || le t s) = true := by
  induction s generalizing t with
  | nil => rfl
  | cons a s ih =>
      cases t with
      | nil => rfl
      | cons b t =>
          have ih := ih t
          rw [Bool.or_eq_true] at ih ⊢
          rw [le_cons_iff, le_cons_iff]
          rcases Nat.lt_trichotomy a.value b.value with h | h | h
          · exact .inl (.inl h)
          · exact ih.imp (fun hst => .inr ⟨h, hst⟩) fun hts => .inr ⟨h.symm, hts⟩
          · exact .inr (.inl h)

theorem le_antisymm (s t : Text) (hst : le s t = true) (hts : le t s = true) : s = t := by
  induction s generalizing t with
  | nil =>
      cases t with
      | nil => rfl
      | cons b t => exact nomatch hts
  | cons a s ih =>
      cases t with
      | nil => exact nomatch hst
      | cons b t =>
          rw [le_cons_iff] at hst hts
          rcases hst with hab | ⟨hab, hst⟩
          · rcases hts with hba | ⟨hba, -⟩ <;> omega
          · rcases hts with hba | ⟨-, hts⟩
            · omega
            · rw [CodePoint.value_injective a b hab, ih t hst hts]

theorem filter_mergeSort_le (p : Text → Bool) (ts : List Text) :
    (ts.mergeSort le).filter p = (ts.filter p).mergeSort le := by
  refine List.Perm.eq_of_pairwise (fun s t _ _ => le_antisymm s t) ?_ ?_ ?_
  · exact (List.pairwise_mergeSort le_trans le_total ts).filter p
  · exact List.pairwise_mergeSort le_trans le_total (ts.filter p)
  · exact ((List.mergeSort_perm ts le).filter p).trans (List.mergeSort_perm (ts.filter p) le).symm

theorem head?_mergeSort_le_eq_some_iff (ts : List Text) (t : Text) :
    (ts.mergeSort le).head? = some t ↔ t ∈ ts ∧ ∀ u ∈ ts, le t u = true := by
  have hsorted := List.pairwise_mergeSort le_trans le_total ts
  have hrefl : ∀ t, le t t = true := fun t => (Bool.or_self _).symm.trans (le_total t t)
  cases hts : ts.mergeSort le with
  | nil =>
      have hperm := (List.mergeSort_perm ts le).symm
      rw [hts] at hperm
      simp [hperm.eq_nil]
  | cons v us =>
      have hmem : ∀ u, u ∈ ts ↔ u ∈ v :: us := fun u => by rw [← hts, List.mem_mergeSort]
      rw [hts, List.pairwise_cons] at hsorted
      simp only [List.head?_cons, Option.some.injEq, hmem]
      constructor
      · rintro rfl
        exact ⟨List.mem_cons_self, List.forall_mem_cons.2 ⟨hrefl v, hsorted.1⟩⟩
      · rintro ⟨ht, hleast⟩
        rcases List.mem_cons.1 ht with rfl | ht
        · rfl
        · exact le_antisymm v t (hsorted.1 t ht) (hleast v List.mem_cons_self)

end Text

end LocaleKeys
