import LocaleKeys.Path.Basic
import LocaleKeys.Path.Name
import LocaleKeys.Proofs.Text.Segments
import Mathlib.Data.List.TakeWhile

/-!
# The path of an entry of a directory

Joining a directory and the name of an entry puts exactly that name behind the segments of the
directory (`exists_split_join`), whether or not the directory ends in a slash. Taking the path apart
again gives the name (`base_join`) and, for paths in normal form, the directory.
-/

namespace LocaleKeys

namespace Name

def isNameable (c : CodePoint) : Bool := (c.isScalar || isByteSurrogate c) && c ≠ .scalar '\x00'

theorem faultAt?_eq_none_iff (t : Text) (pos : Nat) :
    faultAt? pos t = none ↔ ∀ c ∈ t, (c.isScalar || isByteSurrogate c) = true := by
  induction t generalizing pos with
  | nil => simp [faultAt?]
  | cons c t ih =>
      cases c with
      | scalar c => simp [faultAt?, ih, CodePoint.isScalar]
      | surrogate u =>
          by_cases hu : isByteSurrogate (.surrogate u) = true
          · simp [faultAt?, ih, hu]
          · simp [faultAt?, hu, CodePoint.isScalar]

theorem check_eq_ok_iff (t : Text) : check t = .ok () ↔ ∀ c ∈ t, isNameable c = true := by
  have hbytes : checkBytes t = .ok () ↔ ∀ c ∈ t, (c.isScalar || isByteSurrogate c) = true := by
    rw [← faultAt?_eq_none_iff t 0, checkBytes]
    cases faultAt? 0 t <;> simp
  have hsplit : (∀ c ∈ t, isNameable c = true) ↔
      checkBytes t = .ok () ∧ CodePoint.scalar '\x00' ∉ t := by
    rw [hbytes]
    constructor
    · intro h
      refine ⟨fun c hc => (Bool.and_eq_true_iff.1 (h c hc)).1, fun hnul => ?_⟩
      exact absurd (Bool.and_eq_true_iff.1 (h _ hnul)).2 (by decide)
    · rintro ⟨h, hnul⟩ c hc
      refine Bool.and_eq_true_iff.2 ⟨h c hc, ?_⟩
      exact decide_eq_true fun hc' => hnul (hc' ▸ hc)
  rw [hsplit, check]
  cases hcheck : checkBytes t with
  | error f => simp [bind, Except.bind]
  | ok u =>
      by_cases hnul : CodePoint.scalar '\x00' ∈ t
      · simp [bind, Except.bind, hnul, throw, throwThe, MonadExceptOf.throw]
      · simp [bind, Except.bind, hnul, pure, Except.pure]

theorem byteLength_append (s t : Text) : byteLength (s ++ t) = byteLength s + byteLength t := by
  induction s with
  | nil => simp [byteLength]
  | cons c s ih =>
      cases c with
      | scalar c => rw [List.cons_append, byteLength, byteLength, ih, Nat.add_assoc]
      | surrogate u => rw [List.cons_append, byteLength, byteLength, ih, Nat.add_assoc]

end Name

namespace Path

/-- Whether a text can be the name of an entry of a directory. -/
structure IsEntryName (name : Text) : Prop where
  ne_nil : name ≠ []
  ne_dot : name ≠ dot
  ne_dotDot : name ≠ dotDot
  slash_not_mem : slash ∉ name

instance decidableIsEntryName (name : Text) : Decidable (IsEntryName name) :=
  decidable_of_iff (name ≠ [] ∧ name ≠ dot ∧ name ≠ dotDot ∧ slash ∉ name)
    ⟨fun h => ⟨h.1, h.2.1, h.2.2.1, h.2.2.2⟩,
      fun h => ⟨h.ne_nil, h.ne_dot, h.ne_dotDot, h.slash_not_mem⟩⟩

theorem isEntryName_of_length (name : Text) (hlength : 3 ≤ name.length) (h : slash ∉ name) :
    IsEntryName name := by
  refine ⟨?_, ?_, ?_, h⟩
  · rintro rfl
    exact absurd hlength (by decide)
  · rintro rfl
    exact absurd hlength (by decide)
  · rintro rfl
    exact absurd hlength (by decide)

theorem isAbsolute_eq_false_of_not_mem (name : Text) (h : slash ∉ name) :
    isAbsolute name = false := by
  cases name with
  | nil => rfl
  | cons c t => exact decide_eq_false fun hc => h (hc ▸ List.mem_cons_self)

theorem join_eq_append (dir name : Text) (hdir : dir ≠ []) (hname : slash ∉ name) :
    (∃ d, dir = d ++ [slash] ∧ join dir name = d ++ slash :: name) ∨
      join dir name = dir ++ slash :: name := by
  have habs := isAbsolute_eq_false_of_not_mem name hname
  by_cases hlast : dir.getLast? = some slash
  · obtain ⟨d, rfl⟩ := List.getLast?_eq_some_iff.1 hlast
    refine .inl ⟨d, rfl, ?_⟩
    rw [join, habs, hlast]
    simp
  · refine .inr ?_
    rw [join, habs]
    simp [hdir, hlast]

/-- The segments of the path of an entry are those of the directory, an empty one at its end left
out, and the name. -/
theorem exists_split_join (dir name : Text) (hdir : dir ≠ []) (hname : slash ∉ name) :
    ∃ above, Text.split slash (join dir name) = above ++ [name] ∧
      (Text.split slash dir = above ∨ Text.split slash dir = above ++ [[]]) := by
  rcases join_eq_append dir name hdir hname with ⟨d, rfl, hjoin⟩ | hjoin
  · refine ⟨Text.split slash d, ?_, .inr ?_⟩
    · rw [hjoin, Text.split_append_separator, Text.split_of_not_mem slash name hname]
    · rw [Text.split_append_separator]
      rfl
  · refine ⟨Text.split slash dir, ?_, .inl rfl⟩
    rw [hjoin, Text.split_append_separator, Text.split_of_not_mem slash name hname]

theorem isAbsolute_join (dir name : Text) (hdir : dir ≠ []) (hname : slash ∉ name) :
    isAbsolute (join dir name) = isAbsolute dir := by
  rcases join_eq_append dir name hdir hname with ⟨d, rfl, hjoin⟩ | hjoin
  · rw [hjoin]
    cases d <;> rfl
  · rw [hjoin]
    cases dir with
    | nil => exact absurd rfl hdir
    | cons c t => rfl

theorem join_ne_nil (dir name : Text) (hdir : dir ≠ []) (hname : slash ∉ name) :
    join dir name ≠ [] := by
  rcases join_eq_append dir name hdir hname with ⟨d, -, hjoin⟩ | hjoin <;> simp [hjoin]

theorem mem_join_iff (dir name : Text) (hdir : dir ≠ []) (hname : slash ∉ name) (c : CodePoint) :
    c ∈ join dir name ↔ c ∈ dir ∨ c = slash ∨ c ∈ name := by
  rcases join_eq_append dir name hdir hname with ⟨d, rfl, hjoin⟩ | hjoin
  · rw [hjoin]
    simp [or_assoc]
  · rw [hjoin]
    simp

theorem byteLength_join (dir name : Text) (hdir : dir ≠ []) (hname : slash ∉ name) :
    Name.byteLength dir + Name.byteLength name ≤ Name.byteLength (join dir name) ∧
      Name.byteLength (join dir name) ≤ Name.byteLength dir + 1 + Name.byteLength name := by
  have hslash : ∀ t, Name.byteLength (slash :: t) = 1 + Name.byteLength t := fun t => rfl
  rcases join_eq_append dir name hdir hname with ⟨d, rfl, hjoin⟩ | hjoin
  · rw [hjoin, Name.byteLength_append, Name.byteLength_append, hslash, hslash, Name.byteLength]
    omega
  · rw [hjoin, Name.byteLength_append, hslash]
    omega

theorem takeWhile_reverse_append_slash (d name : Text) (hname : slash ∉ name) :
    (d ++ slash :: name).reverse.takeWhile (· ≠ slash) = name.reverse := by
  have hall : ∀ c ∈ name.reverse, (fun c => decide (c ≠ slash)) c = true := by
    intro c hc
    refine decide_eq_true fun hc' => hname ?_
    rw [← hc']
    exact List.mem_reverse.1 hc
  rw [List.reverse_append, List.reverse_cons, List.append_assoc, List.takeWhile_append_of_pos hall]
  simp

theorem base_append (d name : Text) (hname : slash ∉ name) : base (d ++ slash :: name) = name := by
  rw [base, takeWhile_reverse_append_slash d name hname, List.reverse_reverse]

theorem base_join (dir name : Text) (hdir : dir ≠ []) (hname : slash ∉ name) :
    base (join dir name) = name := by
  rcases join_eq_append dir name hdir hname with ⟨d, -, hjoin⟩ | hjoin
  · rw [hjoin, base_append d name hname]
  · rw [hjoin, base_append dir name hname]

theorem base_of_not_mem (p : Text) (h : slash ∉ p) : base p = p := by
  have hall : ∀ c ∈ p.reverse, (fun c => decide (c ≠ slash)) c = true := by
    intro c hc
    exact decide_eq_true fun hc' => h (hc' ▸ List.mem_reverse.1 hc)
  rw [base, List.takeWhile_eq_self_iff.2 hall, List.reverse_reverse]

/-- A path with a slash is what precedes the last slash, the slash, and the base. -/
theorem exists_eq_append_base (p : Text) (h : slash ∈ p) : ∃ d, p = d ++ slash :: base p := by
  obtain ⟨behind, before, hp, hbehind⟩ := List.eq_append_cons_of_mem (List.mem_reverse.2 h)
  have hp' : p = before.reverse ++ slash :: behind.reverse := by
    rw [← List.reverse_reverse p, hp]
    simp
  refine ⟨before.reverse, ?_⟩
  rw [hp', base_append _ _ fun hmem => hbehind (List.mem_reverse.1 hmem)]

theorem slash_not_mem_base (p : Text) : slash ∉ base p := by
  intro h
  exact absurd (List.mem_takeWhile_imp (List.mem_reverse.1 h)) (by simp)

theorem exists_split_eq_append_base (p : Text) :
    ∃ above, Text.split slash p = above ++ [base p] := by
  by_cases h : slash ∈ p
  · obtain ⟨d, hd⟩ := exists_eq_append_base p h
    refine ⟨Text.split slash d, ?_⟩
    rw [← Text.split_of_not_mem slash (base p) (slash_not_mem_base p),
      ← Text.split_append_separator, ← hd]
  · exact ⟨[], by rw [base_of_not_mem p h, Text.split_of_not_mem slash p h]; rfl⟩

theorem directory_append (d name : Text) (c : CodePoint) (hc : c ≠ slash) (hname : slash ∉ name) :
    directory (d ++ [c] ++ slash :: name) = d ++ [c] := by
  have hall : ∀ x ∈ name.reverse, (fun x => decide (x ≠ slash)) x = true := by
    intro x hx
    refine decide_eq_true fun hx' => hname ?_
    rw [← hx']
    exact List.mem_reverse.1 hx
  have hhead : ((d ++ [c] ++ slash :: name).reverse.dropWhile (· ≠ slash)).reverse =
      d ++ [c] ++ [slash] := by
    rw [List.reverse_append, List.reverse_cons, List.append_assoc,
      List.dropWhile_append_of_pos hall]
    simp
  rw [directory, hhead]
  simp [hc]

theorem directory_ne_nil (p : Text) (h : slash ∈ p) : directory p ≠ [] := by
  have hhead : (p.reverse.dropWhile (· ≠ slash)).reverse ≠ [] := by
    intro hnil
    have hall := List.dropWhile_eq_nil_iff.1 (List.reverse_eq_nil_iff.1 hnil) slash
      (List.mem_reverse.2 h)
    exact absurd hall (by simp)
  rw [directory]
  split
  · exact hhead
  · next htrimmed => simpa using htrimmed

theorem isAbsolute_join_of_isAbsolute (here p : Text) (h : isAbsolute here = true) :
    isAbsolute (join here p) = true := by
  unfold join
  split
  · next hp => exact hp
  · cases here with
    | nil => exact nomatch h
    | cons c t => split <;> exact h

theorem directory_absolute_ne_nil (here p : Text) (h : isAbsolute here = true) :
    directory (absolute here p) ≠ [] := by
  refine directory_ne_nil _ ?_
  have hleading : leading (join here p) ≠ 0 := by
    rw [leading, if_pos (isAbsolute_join_of_isAbsolute here p h)]
    split <;> simp
  have hmem : slash ∈ Text.fill (leading (join here p)) slash :=
    List.mem_replicate.2 ⟨hleading, rfl⟩
  rw [absolute, normal]
  split
  · next hq =>
      exact absurd (List.isEmpty_iff.1 hq) (List.ne_nil_of_mem (List.mem_append_left _ hmem))
  · exact List.mem_append_left _ hmem

end Path

end LocaleKeys
