import LocaleKeys.Proofs.Store.Walk

/-!
# Setting an entry

What setting an entry does to the names in a directory, to the directories, and to the tree that the
entries form. A name is added in front of no other one, and only for a location that was free.
-/

namespace LocaleKeys

namespace Store

def childName (l k : Location) : Option Text :=
  if l.isPrefixOf k && k.length = l.length + 1 then k.getLast? else none

theorem children_eq_filterMap (s : Store) (l : Location) :
    s.children l = (s.entries.map Prod.fst).filterMap (childName l) := by
  rw [children, List.filterMap_map]
  rfl

theorem childName_append_singleton (l : Location) (name : Text) :
    childName l (l ++ [name]) = some name := by
  have hprefix : l.isPrefixOf (l ++ [name]) = true :=
    List.isPrefixOf_iff_prefix.2 (List.prefix_append l [name])
  simp [childName, hprefix]

theorem eq_of_childName_eq_some (l k : Location) (name : Text) (h : childName l k = some name) :
    k = l ++ [name] := by
  rw [childName] at h
  split at h
  · next hk =>
      rw [Bool.and_eq_true, List.isPrefixOf_iff_prefix, decide_eq_true_eq] at hk
      obtain ⟨⟨rest, rfl⟩, hlength⟩ := hk
      rw [List.length_append] at hlength
      obtain ⟨x, rfl⟩ := List.length_eq_one_iff.1 (Nat.add_left_cancel hlength)
      rw [List.getLast?_concat] at h
      rw [Option.some.inj h]
  · exact nomatch h

theorem mem_map_fst_of_lookup (k : Location) (e : Entry) (es : List (Location × Entry))
    (h : es.lookup k = some e) : k ∈ es.map Prod.fst := by
  obtain ⟨before, after, rfl, -⟩ := List.lookup_eq_some_iff.1 h
  simp

theorem lookup_eq_none_of_not_mem (k : Location) (es : List (Location × Entry))
    (h : k ∉ es.map Prod.fst) : es.lookup k = none := by
  cases hl : es.lookup k with
  | none => rfl
  | some e => exact absurd (mem_map_fst_of_lookup k e es hl) h

theorem mem_children_of_get?_eq_some (s : Store) (l : Location) (name : Text) (e : Entry)
    (h : s.get? (l ++ [name]) = some e) : name ∈ s.children l := by
  rw [get?_of_ne_nil _ _ (by simp)] at h
  rw [children_eq_filterMap]
  exact List.mem_filterMap.2
    ⟨l ++ [name], mem_map_fst_of_lookup _ e _ h, childName_append_singleton l name⟩

theorem map_fst_setIn (l : Location) (e : Entry) (es : List (Location × Entry)) :
    (setIn l e es).map Prod.fst =
      if l ∈ es.map Prod.fst then es.map Prod.fst else es.map Prod.fst ++ [l] := by
  induction es with
  | nil => rfl
  | cons x es ih =>
      obtain ⟨k, f⟩ := x
      rw [setIn]
      by_cases hk : k = l
      · simp [hk]
      · rw [if_neg hk, List.map_cons, List.map_cons, ih]
        by_cases hmem : l ∈ es.map Prod.fst
        · rw [if_pos hmem, if_pos (List.mem_cons_of_mem _ hmem)]
        · rw [if_neg hmem, if_neg (List.not_mem_cons_of_ne_of_not_mem (Ne.symm hk) hmem)]
          rfl

/-- Setting an entry adds a name at the end if its location is free, and no name otherwise. -/
theorem children_set (s : Store) (l d : Location) (e : Entry) :
    (s.set l e).children d = s.children d ∨
      ∃ name, l = d ++ [name] ∧ s.get? l = none ∧
        (s.set l e).children d = s.children d ++ [name] := by
  have hkeys := map_fst_setIn l e s.entries
  have hset : (s.set l e).children d =
      ((setIn l e s.entries).map Prod.fst).filterMap (childName d) :=
    children_eq_filterMap _ d
  rw [hset, hkeys, children_eq_filterMap]
  by_cases hmem : l ∈ s.entries.map Prod.fst
  · rw [if_pos hmem]
    exact .inl rfl
  · rw [if_neg hmem, List.filterMap_append]
    cases hname : childName d l with
    | none => exact .inl (by simp [hname])
    | some name =>
        obtain rfl := eq_of_childName_eq_some d l name hname
        refine .inr ⟨name, rfl, ?_, by simp [hname]⟩
        rw [get?_of_ne_nil _ _ (by simp)]
        exact lookup_eq_none_of_not_mem _ _ hmem

theorem length_children_set_le (s : Store) (l d : Location) (e : Entry) :
    ((s.set l e).children d).length ≤ (s.children d).length + 1 := by
  rcases children_set s l d e with heq | ⟨name, -, -, heq⟩
  · rw [heq]
    omega
  · rw [heq, List.length_append, List.length_singleton]

theorem set_eq_self (s : Store) (l : Location) (e : Entry) (hl : l ≠ []) (h : s.get? l = some e) :
    s.set l e = s := by
  rw [get?_of_ne_nil _ l hl] at h
  have hsame : ∀ es : List (Location × Entry), es.lookup l = some e → setIn l e es = es := by
    intro es hes
    induction es with
    | nil => exact nomatch hes
    | cons x es ih =>
        obtain ⟨k, f⟩ := x
        rw [List.lookup_cons] at hes
        rw [setIn]
        by_cases hk : k = l
        · have hb : (l == k) = true := by simp [hk]
          rw [hb] at hes
          obtain rfl := Option.some.inj hes
          rw [if_pos hk]
        · have hb : (l == k) = false := by simpa using Ne.symm hk
          rw [hb] at hes
          rw [if_neg hk, ih hes]
  exact congrArg Store.mk (hsame s.entries h)

theorem isDirectoryAt_set_file_iff (s : Store) (l k : Location) (bytes : Bytes) (mode : Mode)
    (hl : l ≠ []) (h : ¬ s.IsDirectoryAt l) :
    (s.set l (.file bytes mode)).IsDirectoryAt k ↔ s.IsDirectoryAt k := by
  by_cases hk : k = l
  · subst hk
    refine iff_of_false ?_ h
    rintro ⟨m, hm⟩
    rw [get?_set_self _ _ _ hl] at hm
    exact nomatch hm
  · rw [IsDirectoryAt, get?_set_of_ne _ _ _ _ hk, IsDirectoryAt]

theorem isDirectoryAt_set_directory (s : Store) (l k : Location) (mode : Mode)
    (h : s.IsDirectoryAt k) : (s.set l (.directory mode)).IsDirectoryAt k := by
  by_cases hnil : k = []
  · rw [hnil]
    exact isDirectoryAt_nil _
  · by_cases hk : k = l
    · subst hk
      exact ⟨mode, get?_set_self _ _ _ hnil⟩
    · obtain ⟨m, hm⟩ := h
      exact ⟨m, by rw [get?_set_of_ne _ _ _ _ hk, hm]⟩

theorem isTree_set_file (s : Store) (parent : Location) (name : Text) (bytes : Bytes) (mode : Mode)
    (hs : s.IsTree) (hname : Path.IsEntryName name) (hparent : s.IsDirectoryAt parent)
    (h : ¬ s.IsDirectoryAt (parent ++ [name])) :
    (s.set (parent ++ [name]) (.file bytes mode)).IsTree := by
  intro l n e he
  rw [isDirectoryAt_set_file_iff s _ l bytes mode (by simp) h]
  by_cases hl : l ++ [n] = parent ++ [name]
  · obtain ⟨rfl, hn⟩ := List.append_inj' hl rfl
    rw [(List.cons.inj hn).1]
    exact ⟨hname, hparent⟩
  · rw [get?_set_of_ne _ _ _ _ hl] at he
    exact hs l n e he

theorem isTree_set_directory (s : Store) (parent : Location) (name : Text) (mode : Mode)
    (hs : s.IsTree) (hname : Path.IsEntryName name) (hparent : s.IsDirectoryAt parent) :
    (s.set (parent ++ [name]) (.directory mode)).IsTree := by
  intro l n e he
  have hkeep := isDirectoryAt_set_directory s (parent ++ [name]) l mode
  by_cases hl : l ++ [n] = parent ++ [name]
  · obtain ⟨rfl, hn⟩ := List.append_inj' hl rfl
    rw [(List.cons.inj hn).1]
    exact ⟨hname, hkeep hparent⟩
  · rw [get?_set_of_ne _ _ _ _ hl] at he
    exact (hs l n e he).imp id hkeep

theorem get?_append_eq_none (s : Store) (hs : s.IsTree) (l : Location) (name : Text)
    (h : s.get? l = none) : s.get? (l ++ [name]) = none := by
  cases he : s.get? (l ++ [name]) with
  | none => rfl
  | some e =>
      obtain ⟨-, m, hm⟩ := hs l name e he
      rw [h] at hm
      exact nomatch hm

theorem exists_of_mem_children (s : Store) (l : Location) (name : Text) (h : name ∈ s.children l) :
    ∃ e, s.get? (l ++ [name]) = some e := by
  rw [children_eq_filterMap] at h
  obtain ⟨k, hk, hname⟩ := List.mem_filterMap.1 h
  obtain rfl := eq_of_childName_eq_some l k name hname
  rw [get?_of_ne_nil _ _ (by simp)]
  cases hl : s.entries.lookup (l ++ [name]) with
  | some e => exact ⟨e, rfl⟩
  | none =>
      obtain ⟨x, hx, hfst⟩ := List.mem_map.1 hk
      have hne := List.lookup_eq_none_iff.1 hl x hx
      rw [hfst] at hne
      exact absurd hne (by simp)

theorem isEntryName_of_mem_children (s : Store) (hs : s.IsTree) (l : Location) (name : Text)
    (h : name ∈ s.children l) : Path.IsEntryName name := by
  obtain ⟨e, he⟩ := exists_of_mem_children s l name h
  exact (hs l name e he).1

theorem mem_children_iff (s : Store) (l : Location) (name : Text) :
    name ∈ s.children l ↔ (s.get? (l ++ [name])).isSome = true := by
  rw [Option.isSome_iff_exists]
  exact ⟨exists_of_mem_children s l name, fun ⟨e, he⟩ => mem_children_of_get?_eq_some s l name e he⟩

theorem not_isDirectoryAt_of_get?_eq_none (s : Store) (l : Location) (h : s.get? l = none) :
    ¬ s.IsDirectoryAt l := by
  rintro ⟨m, hm⟩
  rw [h] at hm
  exact nomatch hm

section Overwriting

variable (s : Store) (l : Location) (old bytes : Bytes) (m mode : Mode)
variable (h : s.get? l = some (.file old m))
include h

theorem ne_nil_of_get?_eq_file : l ≠ [] := by
  rintro rfl
  exact nomatch h

theorem not_isDirectoryAt_of_get?_eq_file : ¬ s.IsDirectoryAt l := by
  rintro ⟨m', hm'⟩
  rw [h] at hm'
  exact nomatch hm'

theorem isTree_set_of_get?_eq_file (hs : s.IsTree) : (s.set l (.file bytes mode)).IsTree := by
  obtain ⟨parent, name, rfl⟩ :=
    List.eq_nil_or_concat l |>.resolve_left (ne_nil_of_get?_eq_file s l old m h)
  rw [List.concat_eq_append] at h ⊢
  obtain ⟨hname, hparent⟩ := hs parent name _ h
  exact isTree_set_file s parent name bytes mode hs hname hparent
    (not_isDirectoryAt_of_get?_eq_file s _ old m h)

theorem children_set_of_get?_eq_file (d : Location) :
    (s.set l (.file bytes mode)).children d = s.children d := by
  rcases children_set s l d (.file bytes mode) with heq | ⟨name, -, hfree, -⟩
  · exact heq
  · rw [h] at hfree
    exact nomatch hfree

end Overwriting

end Store

end LocaleKeys
