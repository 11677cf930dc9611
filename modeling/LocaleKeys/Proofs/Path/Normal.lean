import LocaleKeys.Proofs.Path.Joining

/-!
# Paths in normal form

An absolute path in normal form is made of the slashes at its front and of the names behind them
(`normal_eq_rooted`). Its segments are these names, the path of an entry has one name more, and the
directory of an entry is the path without its last name. With one slash at the front, or two, such a
path is its own normal form (`normal_rooted`). Whatever path leads to a directory, the absolute path
of an entry in it ends in the name of the entry (`exists_absolute_join_eq`).
-/

namespace LocaleKeys

namespace Path

/-- The path of names below a root that is written with `k` slashes. -/
def rooted (k : Nat) (names : List Text) : Text := Text.fill k slash ++ Text.join [slash] names

def ofNames (names : List Text) : Text := slash :: Text.join [slash] names

theorem leading_eq_one_or_two (p : Text) (h : isAbsolute p = true) :
    leading p = 1 ∨ leading p = 2 := by
  rw [leading, if_pos h]
  split
  · exact .inr rfl
  · exact .inl rfl

theorem exists_leading_eq (p : Text) (h : isAbsolute p = true) : ∃ k, leading p = k + 1 := by
  rcases leading_eq_one_or_two p h with hk | hk
  · exact ⟨0, hk⟩
  · exact ⟨1, hk⟩

theorem isAbsolute_rooted (k : Nat) (names : List Text) :
    isAbsolute (rooted (k + 1) names) = true := rfl

theorem normal_eq_rooted (p : Text) (h : isAbsolute p = true) :
    normal p = rooted (leading p) (segments p) := by
  obtain ⟨k, hk⟩ := exists_leading_eq p h
  have hne : (rooted (k + 1) (segments p)).isEmpty = false := rfl
  rw [normal, hk]
  exact if_neg (by rw [← rooted, hne]; exact Bool.false_ne_true)

theorem push_same (stack : List Text) (n : Text) (h : n = [] ∨ n = dot) :
    push true stack n = stack := by
  rcases h with rfl | rfl <;> rfl

theorem push_dotDot (stack : List Text) (h : dotDot ∉ stack) :
    push true stack dotDot = stack.tail := by
  cases stack with
  | nil => rfl
  | cons top below =>
      have htop : top ≠ dotDot := fun htop => h (htop ▸ List.mem_cons_self)
      exact if_neg htop

theorem push_of_ne (stack : List Text) (n : Text) (hnil : n ≠ []) (hdot : n ≠ dot)
    (hdots : n ≠ dotDot) : push true stack n = n :: stack := by
  simp [push, hnil, hdot, hdots]

theorem foldl_push_of_isEntryName (names stack : List Text)
    (hnames : ∀ n ∈ names, IsEntryName n) :
    names.foldl (push true) stack = names.reverse ++ stack := by
  induction names generalizing stack with
  | nil => rfl
  | cons n ns ih =>
      obtain ⟨hn, hns⟩ := List.forall_mem_cons.1 hnames
      rw [List.foldl_cons, push_of_ne stack n hn.ne_nil hn.ne_dot hn.ne_dotDot, ih (n :: stack) hns]
      simp

theorem isEntryName_of_mem_foldl_push (names stack : List Text)
    (hnames : ∀ n ∈ names, slash ∉ n) (hstack : ∀ n ∈ stack, IsEntryName n) :
    ∀ n ∈ names.foldl (push true) stack, IsEntryName n := by
  induction names generalizing stack with
  | nil => exact hstack
  | cons n ns ih =>
      obtain ⟨hn, hns⟩ := List.forall_mem_cons.1 hnames
      refine ih (push true stack n) hns ?_
      by_cases hsame : n = [] ∨ n = dot
      · rw [push_same stack n hsame]
        exact hstack
      · rw [not_or] at hsame
        by_cases hdots : n = dotDot
        · rw [hdots, push_dotDot stack fun h => (hstack _ h).ne_dotDot rfl]
          exact fun m hm => hstack m (List.mem_of_mem_tail hm)
        · rw [push_of_ne stack n hsame.1 hsame.2 hdots]
          exact List.forall_mem_cons.2 ⟨⟨hsame.1, hsame.2, hdots, hn⟩, hstack⟩

theorem isEntryName_of_mem_segments (p : Text) (h : isAbsolute p = true) :
    ∀ n ∈ segments p, IsEntryName n := by
  intro n hn
  rw [segments, h, List.mem_reverse] at hn
  exact isEntryName_of_mem_foldl_push (Text.split slash p) [] (Text.not_mem_of_mem_split slash p)
    (fun _ h => nomatch h) n hn

/-- The slashes at the front are empty segments, which lead nowhere. -/
theorem foldl_push_split_fill (k : Nat) (t : Text) (stack : List Text) :
    (Text.split slash (Text.fill k slash ++ t)).foldl (push true) stack =
      (Text.split slash t).foldl (push true) stack := by
  induction k with
  | zero => rfl
  | succ k ih =>
      have hcons : Text.fill (k + 1) slash ++ t = slash :: (Text.fill k slash ++ t) := rfl
      rw [hcons, Text.split_cons_self, List.foldl_cons]
      exact ih

section Rooted

variable (k : Nat) (names : List Text) (hnames : ∀ n ∈ names, IsEntryName n)
include hnames

theorem segments_rooted : segments (rooted (k + 1) names) = names := by
  rw [segments, isAbsolute_rooted, rooted, foldl_push_split_fill]
  by_cases hne : names = []
  · subst hne
    rfl
  · rw [Text.split_join slash names hne fun n hn => (hnames n hn).slash_not_mem,
      foldl_push_of_isEntryName names [] hnames]
    simp

theorem isAbsolute_join_eq_false : isAbsolute (Text.join [slash] names) = false := by
  cases names with
  | nil => rfl
  | cons n ns =>
      have hn := hnames n List.mem_cons_self
      cases n with
      | nil => exact absurd rfl hn.ne_nil
      | cons c t =>
          have hc : c ≠ slash := fun hc => hn.slash_not_mem (hc ▸ List.mem_cons_self)
          cases ns with
          | nil => exact decide_eq_false hc
          | cons m ms => exact decide_eq_false hc

theorem leading_rooted (hk : k = 1 ∨ k = 2) : leading (rooted k names) = k := by
  have hjoin := isAbsolute_join_eq_false names hnames
  have hslash : ∀ t, isAbsolute (slash :: t) = true := fun _ => rfl
  rcases hk with rfl | rfl
  · have hrooted : rooted 1 names = slash :: Text.join [slash] names := rfl
    rw [hrooted, leading, if_pos (hslash _), List.drop_one, List.tail_cons, hjoin]
    rfl
  · have hrooted : rooted 2 names = slash :: slash :: Text.join [slash] names := rfl
    have hdrop : (slash :: slash :: Text.join [slash] names).drop 2 = Text.join [slash] names := rfl
    rw [hrooted, leading, if_pos (hslash _), hdrop, hjoin, List.drop_one, List.tail_cons, hslash]
    rfl

theorem normal_rooted (hk : k = 1 ∨ k = 2) : normal (rooted k names) = rooted k names := by
  have habs : isAbsolute (rooted k names) = true := by
    rcases hk with rfl | rfl <;> rfl
  have hsegments : segments (rooted k names) = names := by
    rcases hk with rfl | rfl
    · exact segments_rooted 0 names hnames
    · exact segments_rooted 1 names hnames
  rw [normal_eq_rooted _ habs, leading_rooted k names hnames hk, hsegments]

theorem exists_rooted_eq_append (hne : names ≠ []) :
    ∃ d c, rooted k names = d ++ [c] ∧ c ≠ slash := by
  obtain ⟨ms, m, rfl⟩ := List.eq_nil_or_concat names |>.resolve_left hne
  rw [List.concat_eq_append] at hnames ⊢
  have hm := hnames m (List.mem_append_right _ List.mem_cons_self)
  obtain ⟨t, c, rfl⟩ := List.eq_nil_or_concat m |>.resolve_left hm.ne_nil
  rw [List.concat_eq_append] at hm ⊢
  refine ⟨Text.fill k slash ++ (ms.flatMap (· ++ [slash]) ++ t), c, ?_, ?_⟩
  · rw [rooted, Text.join_append_singleton]
    simp
  · rintro rfl
    exact hm.slash_not_mem (List.mem_append_right _ List.mem_cons_self)

omit hnames in
theorem rooted_append_singleton (n : Text) (hne : names ≠ []) :
    rooted k (names ++ [n]) = rooted k names ++ slash :: n := by
  rw [rooted, rooted, Text.join_append_singleton]
  obtain ⟨ms, m, rfl⟩ := List.eq_nil_or_concat names |>.resolve_left hne
  rw [List.concat_eq_append, Text.join_append_singleton]
  simp

theorem join_rooted (n : Text) (hn : slash ∉ n) :
    join (rooted (k + 1) names) n = rooted (k + 1) (names ++ [n]) := by
  by_cases hne : names = []
  · have hroot : rooted (k + 1) [] = Text.fill k slash ++ [slash] :=
      (List.append_nil _).trans List.replicate_succ'
    have hname : rooted (k + 1) [n] = Text.fill k slash ++ [slash] ++ n :=
      congrArg (· ++ n) List.replicate_succ'
    rw [hne, List.nil_append, hname, join, isAbsolute_eq_false_of_not_mem n hn, hroot]
    simp
  · obtain ⟨d, c, hd, hc⟩ := exists_rooted_eq_append (k + 1) names hnames hne
    rw [rooted_append_singleton (k + 1) names n hne]
    rcases join_eq_append (rooted (k + 1) names) n (List.cons_ne_nil _ _) hn with ⟨e, he, -⟩ | hjoin
    · rw [hd] at he
      exact absurd (List.cons.inj (List.append_inj' he rfl).2).1 hc
    · exact hjoin

theorem directory_rooted (n : Text) (hn : slash ∉ n) :
    directory (rooted (k + 1) (names ++ [n])) = rooted (k + 1) names := by
  by_cases hne : names = []
  · have hall : ∀ c ∈ n.reverse, decide (c ≠ slash) = true := by
      intro c hc
      exact decide_eq_true fun hc' => hn (hc' ▸ List.mem_reverse.1 hc)
    have hhead : ((rooted (k + 1) [n]).reverse.dropWhile (· ≠ slash)).reverse =
        Text.fill (k + 1) slash := by
      have hslashes : (Text.fill (k + 1) slash).reverse = slash :: Text.fill k slash :=
        List.reverse_replicate
      rw [rooted, Text.join, List.reverse_append, List.dropWhile_append_of_pos hall, hslashes,
        List.dropWhile_cons_of_neg (by simp), ← hslashes, List.reverse_reverse]
    have htrimmed : (Text.fill (k + 1) slash).reverse.dropWhile (· = slash) = [] := by
      rw [List.dropWhile_eq_nil_iff]
      intro c hc
      exact decide_eq_true (List.eq_of_mem_replicate (List.mem_reverse.1 hc))
    rw [hne, List.nil_append, directory, hhead, htrimmed]
    exact (List.append_nil _).symm
  · obtain ⟨d, c, hd, hc⟩ := exists_rooted_eq_append (k + 1) names hnames hne
    rw [rooted_append_singleton (k + 1) names n hne, hd]
    exact directory_append d n c hc hn

end Rooted

section OfNames

variable (names : List Text) (hnames : ∀ n ∈ names, IsEntryName n)

theorem ofNames_append_singleton (n : Text) (hne : names ≠ []) :
    ofNames (names ++ [n]) = ofNames names ++ slash :: n :=
  rooted_append_singleton 1 names n hne

include hnames

theorem segments_ofNames : segments (ofNames names) = names := segments_rooted 0 names hnames

theorem join_ofNames (n : Text) (hn : slash ∉ n) :
    join (ofNames names) n = ofNames (names ++ [n]) := join_rooted 0 names hnames n hn

theorem directory_ofNames (n : Text) (hn : slash ∉ n) :
    directory (ofNames (names ++ [n])) = ofNames names := directory_rooted 0 names hnames n hn

theorem normal_ofNames : normal (ofNames names) = ofNames names :=
  normal_rooted 1 names hnames (.inl rfl)

theorem absolute_ofNames (here : Text) : absolute here (ofNames names) = ofNames names := by
  have habs : isAbsolute (ofNames names) = true := rfl
  rw [absolute, join, habs, if_pos rfl, normal_ofNames names hnames]

end OfNames

theorem exists_join_join_eq (here dir name : Text) (hdir : dir ≠ []) (hname : slash ∉ name) :
    ∃ d, join here (join dir name) = d ++ slash :: name := by
  obtain ⟨d, hd⟩ : ∃ d, join dir name = d ++ slash :: name := by
    rcases join_eq_append dir name hdir hname with ⟨d, -, hjoin⟩ | hjoin
    · exact ⟨d, hjoin⟩
    · exact ⟨dir, hjoin⟩
  rw [hd, join]
  split
  · exact ⟨d, rfl⟩
  · split
    · exact ⟨here ++ d, (List.append_assoc _ _ _).symm⟩
    · exact ⟨here ++ slash :: d, (List.append_assoc here (slash :: d) _).symm⟩

/-- Seen from an absolute directory a relative path goes on from the segments of the directory. -/
theorem segments_join (here p : Text) (hhere : isAbsolute here = true)
    (hp : isAbsolute p = false) :
    segments (join here p) =
      ((Text.split slash p).foldl (push true) (segments here).reverse).reverse := by
  have habs := isAbsolute_join_of_isAbsolute here p hhere
  have hne : here.isEmpty = false := by
    cases here with
    | nil => exact nomatch hhere
    | cons c t => rfl
  rw [segments, habs, segments, hhere, List.reverse_reverse, join, hp, hne, Bool.false_or,
    if_neg Bool.false_ne_true]
  split
  · next hlast =>
      obtain ⟨d, rfl⟩ := List.getLast?_eq_some_iff.1 (of_decide_eq_true hlast)
      rw [List.append_assoc, List.singleton_append, Text.split_append_separator,
        Text.split_append_separator, List.foldl_append, List.foldl_append]
      rfl
  · rw [Text.split_append_separator, List.foldl_append]

theorem segments_append_isEntryName (d name : Text) (hname : IsEntryName name) :
    ∃ above, segments (d ++ slash :: name) = above ++ [name] := by
  refine ⟨((Text.split slash d).foldl (push (isAbsolute (d ++ slash :: name))) []).reverse, ?_⟩
  rw [segments, Text.split_append_separator, Text.split_of_not_mem slash name hname.slash_not_mem,
    List.foldl_append, List.foldl_cons, List.foldl_nil]
  simp [push, hname.ne_nil, hname.ne_dot, hname.ne_dotDot]

theorem exists_absolute_join_eq_rooted (here dir name : Text) (hhere : isAbsolute here = true)
    (hdir : dir ≠ []) (hname : IsEntryName name) :
    ∃ k above, (∀ n ∈ above, IsEntryName n) ∧
      segments (join here (join dir name)) = above ++ [name] ∧
      absolute here (join dir name) = rooted (k + 1) (above ++ [name]) := by
  have habs := isAbsolute_join_of_isAbsolute here (join dir name) hhere
  obtain ⟨k, hk⟩ := exists_leading_eq _ habs
  obtain ⟨e, he⟩ := exists_join_join_eq here dir name hdir hname.slash_not_mem
  obtain ⟨above, habove⟩ := segments_append_isEntryName e name hname
  have hnames := isEntryName_of_mem_segments _ habs
  rw [he, habove] at hnames
  refine ⟨k, above, fun n hn => hnames n (List.mem_append_left _ hn), he ▸ habove, ?_⟩
  rw [absolute, normal_eq_rooted _ habs, hk, he, habove]

theorem exists_absolute_join_eq (here dir name : Text) (hhere : isAbsolute here = true)
    (hdir : dir ≠ []) (hname : IsEntryName name) :
    ∃ d, d ≠ [] ∧ absolute here (join dir name) = join d name := by
  obtain ⟨k, above, habove, -, habsolute⟩ :=
    exists_absolute_join_eq_rooted here dir name hhere hdir hname
  refine ⟨rooted (k + 1) above, List.cons_ne_nil _ _, ?_⟩
  rw [habsolute, join_rooted k above habove name hname.slash_not_mem]

theorem base_absolute_join (here dir name : Text) (hhere : isAbsolute here = true)
    (hdir : dir ≠ []) (hname : IsEntryName name) : base (absolute here (join dir name)) = name := by
  obtain ⟨d, hd, habsolute⟩ := exists_absolute_join_eq here dir name hhere hdir hname
  rw [habsolute, base_join d name hd hname.slash_not_mem]

end Path

end LocaleKeys
