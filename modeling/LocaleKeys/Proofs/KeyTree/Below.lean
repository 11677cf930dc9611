import LocaleKeys.Proofs.KeyTree.Addressing

/-!
# Paths below a key

The paths below a key are those of the tree that stands there, each with the key and a separator in
front of it (`paths_cons`, `withPaths_cons`). Where all keys are usable in a path, no other key at
the top has paths that begin in this way, so that the tree under the key is known by the beginning
of the paths alone (`filter_paths_of_isName`). Taking that tree in the place of the whole keeps the
paths below the key, in their order, and cuts the beginning off (`paths_below_unwrapped_key`).
-/

namespace LocaleKeys

namespace KeyTree

/-- What precedes a path below a key at the top of a tree. -/
def beginning (k : Text) : Text := k ++ [separator]

theorem pathOf_cons (k : Text) (above : List Text) (key : Text) :
    pathOf (k :: above) key = beginning k ++ pathOf above key :=
  Text.join_cons_of_ne_nil [separator] k (above ++ [key]) (by simp)

theorem paths_cons {α : Type} (t : KeyTree α) (k : Text) (above : List Text) :
    t.paths (k :: above) = (t.paths above).map (beginning k ++ ·) := by
  induction t generalizing above with
  | nil => rfl
  | leaf key v rest ih => rw [paths, paths, pathOf_cons, ih, List.map_cons]
  | node key below rest ihb ihr =>
      rw [paths, paths, List.cons_append, ihb, ihr, List.map_append]

theorem withPaths_cons {α : Type} (t : KeyTree α) (k : Text) (above : List Text) :
    t.withPaths (k :: above) = (t.withPaths above).map (beginning k ++ ·) := by
  induction t generalizing above with
  | nil => rfl
  | leaf key v rest ih => rw [withPaths, withPaths, pathOf_cons, ih, map]
  | node key below rest ihb ihr => rw [withPaths, withPaths, List.cons_append, ihb, ihr, map]

theorem isPrefixOf_beginning_of_not_mem (k key : Text) (hkey : separator ∉ key) :
    (beginning k).isPrefixOf key = false := by
  rw [← Bool.not_eq_true, List.isPrefixOf_iff_prefix]
  intro h
  exact hkey (h.subset (List.mem_append_right k List.mem_cons_self))

/-- Of two usable keys only the same one has a path below it in common with the other. -/
theorem isPrefixOf_beginning_append (k key p : Text) (hk : separator ∉ k) (hkey : separator ∉ key) :
    (beginning k).isPrefixOf (beginning key ++ p) = decide (key = k) := by
  rw [Bool.eq_iff_iff, List.isPrefixOf_iff_prefix, decide_eq_true_iff]
  constructor
  · rintro ⟨r, hr⟩
    have hsplit := congrArg (Text.split separator) hr
    rw [beginning, beginning, List.append_assoc, List.append_assoc, List.singleton_append,
      List.singleton_append, Text.split_append_separator, Text.split_append_separator,
      Text.split_of_not_mem separator k hk, Text.split_of_not_mem separator key hkey] at hsplit
    exact (List.cons.inj hsplit).1.symm
  · rintro rfl
    exact List.prefix_append _ _

theorem find_of_not_mem_keys {α : Type} (t : KeyTree α) (k : Text) (h : k ∉ t.keys) :
    t.find k = .absent := by
  induction t with
  | nil => rfl
  | leaf key v rest ih =>
      obtain ⟨hkey, hrest⟩ := List.ne_and_not_mem_of_not_mem_cons h
      rw [find, if_neg (Ne.symm hkey), ih hrest]
  | node key below rest _ ihr =>
      obtain ⟨hkey, hrest⟩ := List.ne_and_not_mem_of_not_mem_cons h
      rw [find, if_neg (Ne.symm hkey), ihr hrest]

/-- The paths of what stands under a key; a leaf there has no key of its own. -/
def Found.paths {α : Type} : Found α → List Text
  | .node below => below.paths []
  | _ => []

/-- The paths that begin with a key are those of the tree under it. -/
theorem filter_paths_of_isName {α : Type} (t : KeyTree α) (ht : t.HasDistinctKeys)
    (hnames : ∀ key ∈ t.allKeys, isName key = true) (k : Text) (hk : separator ∉ k) :
    (t.paths []).filter ((beginning k).isPrefixOf ·) =
      (t.find k).paths.map (beginning k ++ ·) := by
  induction t with
  | nil => rfl
  | leaf key v rest ih =>
      obtain ⟨hkey, hrest⟩ := ht
      obtain ⟨hname, hnames⟩ := List.forall_mem_cons.1 hnames
      have hout := isPrefixOf_beginning_of_not_mem k key ((isName_iff key).1 hname).2
      have hpath : pathOf [] key = key := rfl
      rw [paths, hpath, List.filter_cons_of_neg (by simp [hout]), ih hrest hnames, find]
      by_cases heq : key = k
      · subst heq
        rw [find_of_not_mem_keys rest key hkey, if_pos rfl]
        rfl
      · rw [if_neg heq]
  | node key below rest _ ihr =>
      obtain ⟨hkey, -, hrest⟩ := ht
      obtain ⟨hname, hnames⟩ := List.forall_mem_cons.1 hnames
      have hbelow : ∀ p, (beginning k).isPrefixOf (beginning key ++ p) = decide (key = k) :=
        fun p => isPrefixOf_beginning_append k key p hk ((isName_iff key).1 hname).2
      have hnamesRest := (List.forall_mem_append.1 hnames).2
      rw [paths, List.nil_append, paths_cons, List.filter_append, List.filter_map,
        ihr hrest hnamesRest, find]
      simp only [Function.comp_def, hbelow]
      by_cases heq : key = k
      · -- The key does not come again, so that all paths below it come from this node.
        subst heq
        rw [find_of_not_mem_keys rest key hkey]
        simp [Found.paths]
      · simp [heq]

theorem find_withPaths {α : Type} (t : KeyTree α) (k : Text) (below : KeyTree α)
    (h : t.find k = .node below) :
    (t.withPaths []).find k = .node ((below.withPaths []).map (beginning k ++ ·)) := by
  induction t with
  | nil => cases h
  | leaf key v rest ih =>
      by_cases heq : key = k
      · rw [find, if_pos heq] at h
        cases h
      · rw [find, if_neg heq] at h
        rw [withPaths, find, if_neg heq, ih h]
  | node key inner rest _ ihr =>
      by_cases heq : key = k
      · subst heq
        rw [find, if_pos rfl] at h
        obtain rfl := Found.node.inj h
        rw [withPaths, find, if_pos rfl, List.nil_append, withPaths_cons]
      · rw [find, if_neg heq] at h
        rw [withPaths, find, if_neg heq, ihr h]

theorem mem_allKeys_of_find_eq_node {α : Type} (t : KeyTree α) (k : Text) (below : KeyTree α)
    (h : t.find k = .node below) : k ∈ t.allKeys := by
  induction t with
  | nil => cases h
  | leaf key v rest ih =>
      by_cases heq : key = k
      · exact List.mem_cons.2 (.inl heq.symm)
      · rw [find, if_neg heq] at h
        exact List.mem_cons_of_mem key (ih h)
  | node key inner rest _ ihr =>
      by_cases heq : key = k
      · exact List.mem_cons.2 (.inl heq.symm)
      · rw [find, if_neg heq] at h
        exact List.mem_cons_of_mem key (List.mem_append_right _ (ihr h))

/-- In a tree with usable keys, none of them repeated beside itself, the paths of the tree under a
key are the paths of the whole that begin with the key and a separator, in their order and without
that beginning. In the tree of paths, that tree stands under the key with the beginning in front of
every path. -/
theorem paths_below_unwrapped_key (t : KeyTree Json) (ht : t.HasDistinctKeys)
    (hnames : Document.checkNames t = .ok ()) (k : Text) (below : KeyTree Json)
    (hk : t.find k = .node below) :
    Document.unwrapped (some k) t = .ok below ∧
    below.paths [] = ((t.paths []).filter ((k ++ [separator]).isPrefixOf ·)).map
      (List.drop (k ++ [separator]).length) ∧
    (t.withPaths []).find k = .node ((below.withPaths []).map (k ++ [separator] ++ ·)) := by
  have hall := (Document.checkNames_eq_ok_iff t).1 hnames
  obtain ⟨hne, hseparator⟩ := (isName_iff k).1 (hall k (mem_allKeys_of_find_eq_node t k below hk))
  refine ⟨?_, ?_, find_withPaths t k below hk⟩
  · rw [Document.unwrapped, hk]
    exact hne
  · have hfilter := filter_paths_of_isName t ht hall k hseparator
    rw [hk, beginning] at hfilter
    have hcut : List.drop (k ++ [separator]).length ∘ (k ++ [separator] ++ ·) = id :=
      funext fun p => List.drop_left
    rw [hfilter, List.map_map, hcut, List.map_id]
    rfl

/-- A key that begins another one, and that stands again below itself. -/
theorem paths_below_unwrapped_key_nested :
    let below : KeyTree Json :=
      .node "t" (.leaf "a" .null .nil) (.leaf "b" .null (.node "c" .nil .nil))
    let t : KeyTree Json :=
      .leaf "tt" .null (.node "t" below (.node "u" (.leaf "t" .null .nil) .nil))
    t.HasDistinctKeys ∧ Document.checkNames t = .ok () ∧ t.find "t" = .node below ∧
      t.paths [] = ["tt", "t.t.a", "t.b", "u.t"] ∧ below.paths [] = ["t.a", "b"] ∧
      Document.unwrapped (some "t") t = .ok below ∧
      below.paths [] = ((t.paths []).filter ((Text.ofString "t" ++ [separator]).isPrefixOf ·)).map
        (List.drop 2) := by
  intro below t
  have ht : t.HasDistinctKeys := by decide
  have hnames : Document.checkNames t = .ok () := rfl
  obtain ⟨hunwrapped, hpaths, -⟩ := paths_below_unwrapped_key t ht hnames "t" below rfl
  exact ⟨ht, hnames, rfl, rfl, rfl, hunwrapped, hpaths⟩

end KeyTree

end LocaleKeys
