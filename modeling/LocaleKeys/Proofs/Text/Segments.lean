import LocaleKeys.Text.Basic

/-!
# Splitting what was joined

`Text.join` undoes `Text.split` for every text. The other way round holds for segments of which none
holds the separator, if there is a segment at all: joining no segment and joining one empty segment
give the same text. All of it rests on `split_append_separator`, by which a separator cuts a text in
two parts that are split on their own.
-/

namespace LocaleKeys

namespace Text

theorem join_cons_of_ne_nil (sep t : Text) (ts : List Text) (h : ts ≠ []) :
    join sep (t :: ts) = t ++ sep ++ join sep ts := by
  cases ts with
  | nil => exact absurd rfl h
  | cons u us => rfl

theorem join_append_singleton (sep : Text) (ts : List Text) (t : Text) :
    join sep (ts ++ [t]) = ts.flatMap (· ++ sep) ++ t := by
  induction ts with
  | nil => rfl
  | cons u us ih =>
      have hne : us ++ [t] ≠ [] := by simp
      rw [List.cons_append, join_cons_of_ne_nil sep u (us ++ [t]) hne, ih]
      simp

theorem split_cons_self (sep : CodePoint) (t : Text) :
    split sep (sep :: t) = [] :: split sep t := by
  simp [split]

theorem split_cons_of_ne (sep c : CodePoint) (t s : Text) (ss : List Text) (hc : c ≠ sep)
    (hs : split sep t = s :: ss) : split sep (c :: t) = (c :: s) :: ss := by
  simp [split, hc, hs]

theorem split_append_separator (sep : CodePoint) (s t : Text) :
    split sep (s ++ sep :: t) = split sep s ++ split sep t := by
  induction s with
  | nil => exact split_cons_self sep t
  | cons c s ih =>
      by_cases hc : c = sep
      · rw [hc, List.cons_append, split_cons_self, split_cons_self, ih, List.cons_append]
      · obtain ⟨u, us, hu⟩ := List.exists_cons_of_ne_nil (split_ne_nil sep s)
        rw [hu] at ih
        rw [List.cons_append, split_cons_of_ne sep c _ u (us ++ split sep t) hc ih,
          split_cons_of_ne sep c s u us hc hu, List.cons_append]

theorem split_of_not_mem (sep : CodePoint) (s : Text) (h : sep ∉ s) : split sep s = [s] := by
  induction s with
  | nil => rfl
  | cons c s ih =>
      obtain ⟨hc, hs⟩ := List.ne_and_not_mem_of_not_mem_cons h
      exact split_cons_of_ne sep c s s [] hc.symm (ih hs)

theorem not_mem_of_mem_split (sep : CodePoint) (t s : Text) (h : s ∈ split sep t) : sep ∉ s := by
  induction t generalizing s with
  | nil =>
      rw [split, List.mem_singleton] at h
      simp [h]
  | cons c t ih =>
      by_cases hc : c = sep
      · rw [hc, split_cons_self] at h
        rcases List.mem_cons.1 h with rfl | h
        · exact List.not_mem_nil
        · exact ih s h
      · obtain ⟨u, us, hu⟩ := List.exists_cons_of_ne_nil (split_ne_nil sep t)
        rw [split_cons_of_ne sep c t u us hc hu] at h
        rw [hu] at ih
        rcases List.mem_cons.1 h with rfl | h
        · exact List.not_mem_cons_of_ne_of_not_mem (Ne.symm hc) (ih u List.mem_cons_self)
        · exact ih s (List.mem_cons_of_mem u h)

theorem cut_append (sep : CodePoint) (s t : Text) (h : sep ∉ s) :
    cut sep (s ++ sep :: t) = (s, some t) := by
  induction s with
  | nil => simp [cut]
  | cons c s ih =>
      obtain ⟨hc, hs⟩ := List.ne_and_not_mem_of_not_mem_cons h
      rw [List.cons_append, cut, if_neg (Ne.symm hc), ih hs]

/-- Splitting undoes joining when no segment holds the separator. -/
theorem split_join (sep : CodePoint) (ts : List Text) (hts : ts ≠ [])
    (h : ∀ t ∈ ts, sep ∉ t) : split sep (join [sep] ts) = ts := by
  induction ts with
  | nil => exact absurd rfl hts
  | cons t ts ih =>
      have ht : split sep t = [t] := split_of_not_mem sep t (h t List.mem_cons_self)
      by_cases hne : ts = []
      · rw [hne]
        exact ht
      · have hrest := ih hne fun u hu => h u (List.mem_cons_of_mem t hu)
        rw [join_cons_of_ne_nil [sep] t ts hne, List.append_assoc, List.singleton_append,
          split_append_separator, ht, hrest, List.singleton_append]

theorem mem_join_cases (sep : Text) (ts : List Text) (c : CodePoint) (h : c ∈ join sep ts) :
    c ∈ sep ∨ ∃ t ∈ ts, c ∈ t := by
  induction ts with
  | nil => exact nomatch h
  | cons t ts ih =>
      by_cases hne : ts = []
      · rw [hne] at h
        exact .inr ⟨t, List.mem_cons_self, h⟩
      · rw [join_cons_of_ne_nil sep t ts hne, List.append_assoc, List.mem_append,
          List.mem_append] at h
        rcases h with h | h | h
        · exact .inr ⟨t, List.mem_cons_self, h⟩
        · exact .inl h
        · exact (ih h).imp id fun ⟨u, hu, hc⟩ => ⟨u, List.mem_cons_of_mem t hu, hc⟩

theorem isInfix_join_of_mem (sep : Text) (ts : List Text) (t : Text) (ht : t ∈ ts) :
    t <:+: join sep ts := by
  induction ts with
  | nil => exact nomatch ht
  | cons u us ih =>
      by_cases hus : us = []
      · rw [hus] at ht ⊢
        rw [List.mem_singleton.1 ht]
        exact List.infix_rfl
      · rw [join_cons_of_ne_nil sep u us hus]
        rcases List.mem_cons.1 ht with rfl | ht
        · rw [List.append_assoc]
          exact (List.prefix_append t _).isInfix
        · exact (ih ht).trans (List.suffix_append _ _).isInfix

theorem mem_join_of_mem (sep : Text) (ts : List Text) (t : Text) (ht : t ∈ ts) (c : CodePoint)
    (hc : c ∈ t) : c ∈ join sep ts := (isInfix_join_of_mem sep ts t ht).subset hc

theorem mem_of_mem_split (sep : CodePoint) (t s : Text) (hs : s ∈ split sep t) (c : CodePoint)
    (hc : c ∈ s) : c ∈ t := by
  rw [← join_split sep t]
  exact mem_join_of_mem [sep] (split sep t) s hs c hc

end Text

end LocaleKeys
