import LocaleKeys.Proofs.Path.Joining

/-!
# Code points of paths

Path operations put together what they are given: a path that is made of paths whose code points may
all stand in a name is refused as no name nowhere. Besides what is given there are only slashes and
dots.
-/

namespace LocaleKeys

namespace Path

theorem isNameable_slash : Name.isNameable slash = true := by decide

theorem isNameable_of_mem_join (b p : Text) (hb : ∀ c ∈ b, Name.isNameable c = true)
    (hp : ∀ c ∈ p, Name.isNameable c = true) : ∀ c ∈ join b p, Name.isNameable c = true := by
  unfold join
  split
  · exact hp
  · split
    · exact List.forall_mem_append.2 ⟨hb, hp⟩
    · exact List.forall_mem_append.2 ⟨hb, List.forall_mem_cons.2 ⟨isNameable_slash, hp⟩⟩

/-- Carrying out `.` and `..` leaves only segments that were there before. -/
theorem mem_of_mem_push (rooted : Bool) (stack : List Text) (segment n : Text)
    (h : n ∈ push rooted stack segment) : n = segment ∨ n ∈ stack := by
  unfold push at h
  by_cases hsame : (segment.isEmpty || segment = dot) = true
  · rw [if_pos hsame] at h
    exact .inr h
  · rw [if_neg hsame] at h
    by_cases hdots : segment = dotDot
    · rw [if_pos hdots] at h
      cases stack with
      | nil =>
          cases rooted with
          | true => exact nomatch h
          | false => exact .inl (List.mem_singleton.1 h)
      | cons top below =>
          simp only at h
          by_cases htop : top = dotDot
          · rw [if_pos htop] at h
            exact List.mem_cons.1 h
          · rw [if_neg htop] at h
            exact .inr (List.mem_cons_of_mem top h)
    · rw [if_neg hdots] at h
      exact List.mem_cons.1 h

theorem mem_of_mem_foldl_push (rooted : Bool) (names stack : List Text) (n : Text)
    (h : n ∈ names.foldl (push rooted) stack) : n ∈ names ∨ n ∈ stack := by
  induction names generalizing stack with
  | nil => exact .inr h
  | cons m ms ih =>
      rcases ih (push rooted stack m) h with h | h
      · exact .inl (List.mem_cons_of_mem m h)
      · exact (mem_of_mem_push rooted stack m n h).imp (fun h => List.mem_cons.2 (.inl h)) id

theorem isNameable_of_mem_normal (p : Text) (hp : ∀ c ∈ p, Name.isNameable c = true) :
    ∀ c ∈ normal p, Name.isNameable c = true := by
  have hdot : ∀ c ∈ dot, Name.isNameable c = true := by decide
  have hfill : ∀ c ∈ Text.fill (leading p) slash, Name.isNameable c = true := by
    intro c hc
    rw [List.eq_of_mem_replicate hc]
    exact isNameable_slash
  have hsegments : ∀ c ∈ Text.join [slash] (segments p), Name.isNameable c = true := by
    intro c hc
    rcases Text.mem_join_cases [slash] (segments p) c hc with hc | ⟨n, hn, hc⟩
    · rw [List.mem_singleton.1 hc]
      exact isNameable_slash
    · rw [segments, List.mem_reverse] at hn
      have hn := (mem_of_mem_foldl_push _ _ _ n hn).resolve_right List.not_mem_nil
      exact hp c (Text.mem_of_mem_split slash p n hn c hc)
  unfold normal
  simp only
  split
  · exact hdot
  · exact List.forall_mem_append.2 ⟨hfill, hsegments⟩

theorem isNameable_of_mem_absolute (here p : Text) (hhere : ∀ c ∈ here, Name.isNameable c = true)
    (hp : ∀ c ∈ p, Name.isNameable c = true) :
    ∀ c ∈ absolute here p, Name.isNameable c = true :=
  isNameable_of_mem_normal _ (isNameable_of_mem_join here p hhere hp)

theorem mem_of_mem_base (p : Text) (c : CodePoint) (h : c ∈ base p) : c ∈ p :=
  List.mem_reverse.1 ((List.takeWhile_prefix _).subset (List.mem_reverse.1 h))

theorem mem_of_mem_directory (p : Text) (c : CodePoint) (h : c ∈ directory p) : c ∈ p := by
  have hhead : c ∈ (p.reverse.dropWhile (· ≠ slash)).reverse → c ∈ p := fun h =>
    List.mem_reverse.1 ((List.dropWhile_suffix _).subset (List.mem_reverse.1 h))
  unfold directory at h
  simp only at h
  split at h
  · exact hhead h
  · refine hhead (List.mem_reverse.1 ?_)
    exact (List.dropWhile_suffix _).subset (List.mem_reverse.1 h)

end Path

end LocaleKeys
