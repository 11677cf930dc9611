import LocaleKeys.Document.Loading
import LocaleKeys.Proofs.KeyTree.Agreement
import Mathlib.Data.List.Nodup

/-!
# Paths as addresses

`follow` walks down a tree key by key. `keyedLeaves` lists the leaves together with the keys that
lead to them, and stands between the two readings of a path: a path is the join of such keys
(`paths_eq_map_keyedLeaves`), and in a tree without repeated keys walking along them ends at the
leaf (`follow_eq_leaf_iff`). Usable keys do not hold the separator, so that splitting a path gives
its keys back; this is where the check of the names is needed.
-/

namespace LocaleKeys

namespace KeyTree

theorem find_ofMembers (key : Text) (ms : List (Text × Json)) :
    (ofMembers ms).find key =
      match Json.find? key ms with
      | none => .absent
      | some (.obj below) => .node (ofMembers below)
      | some v => .leaf v := by
  induction ms with
  | nil => rfl
  | cons m ms ih =>
      obtain ⟨k, v⟩ := m
      by_cases hk : k = key
      · cases v <;> simp [ofMembers, ofMember, ofValue, find, Json.find?, hk]
      · rw [Json.find?, if_neg hk, ← ih]
        cases v <;> simp [ofMembers, ofMember, ofValue, find, hk]

/-- What stands at the end of a walk along `ks`. A walk that meets a leaf before its end leads
nowhere. -/
def follow {α : Type} : List Text → KeyTree α → Found α
  | [], t => .node t
  | k :: ks, t =>
      match t.find k with
      | .node below => follow ks below
      | .leaf v => if ks.isEmpty then .leaf v else .absent
      | .absent => .absent

/-- The leaves in the order of the document, each with the keys that lead to it. -/
def keyedLeaves {α : Type} : KeyTree α → List (List Text × α)
  | nil => []
  | leaf key value rest => ([key], value) :: keyedLeaves rest
  | node key below rest =>
      (keyedLeaves below).map (fun e => (key :: e.1, e.2)) ++ keyedLeaves rest

/-- The text that leads to a leaf from below the keys `above`. -/
def addressOf (above ks : List Text) : Text := Text.join [separator] (above ++ ks)

theorem paths_eq_map_keyedLeaves {α : Type} (t : KeyTree α) (above : List Text) :
    t.paths above = t.keyedLeaves.map fun e => addressOf above e.1 := by
  induction t generalizing above with
  | nil => rfl
  | leaf key v rest ih =>
      rw [paths, keyedLeaves, List.map_cons, ih above]
      rfl
  | node key below rest ihb ihr =>
      rw [paths, keyedLeaves, List.map_append, List.map_map, ihb, ihr]
      simp [addressOf, Function.comp_def]

theorem leaves_eq_map_keyedLeaves {α : Type} (t : KeyTree α) :
    t.leaves = t.keyedLeaves.map Prod.snd := by
  induction t with
  | nil => rfl
  | leaf key v rest ih => rw [leaves, keyedLeaves, List.map_cons, ih]
  | node key below rest ihb ihr =>
      rw [leaves, keyedLeaves, List.map_append, List.map_map, ihb, ihr]
      rfl

theorem keyedLeaves_withPaths {α : Type} (t : KeyTree α) (above : List Text) :
    (t.withPaths above).keyedLeaves =
      t.keyedLeaves.map fun e => (e.1, addressOf above e.1) := by
  induction t generalizing above with
  | nil => rfl
  | leaf key v rest ih =>
      rw [withPaths, keyedLeaves, keyedLeaves, List.map_cons, ih above]
      rfl
  | node key below rest ihb ihr =>
      rw [withPaths, keyedLeaves, keyedLeaves, List.map_append, List.map_map, ihb, ihr]
      simp [addressOf, Function.comp_def]

theorem keyedLeaves_ne_nil {α : Type} (t : KeyTree α) (e : List Text × α)
    (he : e ∈ t.keyedLeaves) : e.1 ≠ [] := by
  induction t with
  | nil => cases he
  | leaf key v rest ih =>
      rcases List.mem_cons.1 he with rfl | he
      · simp
      · exact ih he
  | node key below rest _ ihr =>
      rcases List.mem_append.1 he with he | he
      · obtain ⟨e', _, rfl⟩ := List.mem_map.1 he
        simp
      · exact ihr he

theorem mem_allKeys_of_keyedLeaves {α : Type} (t : KeyTree α) (e : List Text × α)
    (he : e ∈ t.keyedLeaves) (k : Text) (hk : k ∈ e.1) : k ∈ t.allKeys := by
  induction t generalizing e with
  | nil => cases he
  | leaf key v rest ih =>
      rcases List.mem_cons.1 he with rfl | he
      · exact List.mem_cons.2 (.inl (List.mem_singleton.1 hk))
      · exact List.mem_cons_of_mem key (ih e he hk)
  | node key below rest ihb ihr =>
      rcases List.mem_append.1 he with he | he
      · obtain ⟨e', he', rfl⟩ := List.mem_map.1 he
        rcases List.mem_cons.1 hk with rfl | hk
        · exact List.mem_cons_self
        · exact List.mem_cons_of_mem key (List.mem_append_left _ (ihb e' he' hk))
      · exact List.mem_cons_of_mem key (List.mem_append_right _ (ihr e he hk))

theorem head_mem_keys_of_keyedLeaves {α : Type} (t : KeyTree α) (k : Text) (ks : List Text)
    (v : α) (he : (k :: ks, v) ∈ t.keyedLeaves) : k ∈ t.keys := by
  induction t with
  | nil => cases he
  | leaf key w rest ih =>
      rcases List.mem_cons.1 he with he | he
      · have hk : k = key := (List.cons.inj (Prod.mk.inj he).1).1
        exact List.mem_cons.2 (.inl hk)
      · exact List.mem_cons_of_mem key (ih he)
  | node key below rest _ ihr =>
      rcases List.mem_append.1 he with he | he
      · obtain ⟨e', _, he'⟩ := List.mem_map.1 he
        have hk : key = k := (List.cons.inj (Prod.mk.inj he').1).1
        exact List.mem_cons.2 (.inl hk.symm)
      · exact List.mem_cons_of_mem key (ihr he)

theorem follow_cons_eq_of_find_eq {α : Type} (t u : KeyTree α) (k : Text) (ks : List Text)
    (h : t.find k = u.find k) : t.follow (k :: ks) = u.follow (k :: ks) := by
  rw [follow, follow, h]

/-- In a tree without repeated keys a walk ends at a leaf exactly if it is along the keys that lead
to that leaf. -/
theorem follow_eq_leaf_iff {α : Type} (t : KeyTree α) (ht : t.HasDistinctKeys) (ks : List Text)
    (v : α) : t.follow ks = .leaf v ↔ (ks, v) ∈ t.keyedLeaves := by
  induction t generalizing ks with
  | nil => cases ks <;> simp [follow, find, keyedLeaves]
  | leaf key w rest ih =>
      obtain ⟨hkey, hrest⟩ := ht
      cases ks with
      | nil => simpa [follow, keyedLeaves] using ih hrest []
      | cons k ks =>
          by_cases hk : key = k
          · subst hk
            have hno : (key :: ks, v) ∉ rest.keyedLeaves :=
              fun he => hkey (head_mem_keys_of_keyedLeaves rest key ks v he)
            cases ks <;> simp [follow, find, keyedLeaves, hno, eq_comm]
          · have hfind : (leaf key w rest).find k = rest.find k := by simp [find, hk]
            rw [follow_cons_eq_of_find_eq _ rest k ks hfind, ih hrest (k :: ks)]
            simp [keyedLeaves, Ne.symm hk]
  | node key below rest ihb ihr =>
      obtain ⟨hkey, hbelow, hrest⟩ := ht
      cases ks with
      | nil => simpa [follow, keyedLeaves] using ihr hrest []
      | cons k ks =>
          by_cases hk : key = k
          · subst hk
            -- The key does not come again, so that all leaves along it stand below this node.
            have hno : (key :: ks, v) ∉ rest.keyedLeaves :=
              fun he => hkey (head_mem_keys_of_keyedLeaves rest key ks v he)
            have hfollow : (node key below rest).follow (key :: ks) = below.follow ks := by
              simp [follow, find]
            rw [hfollow, ihb hbelow ks]
            simp [keyedLeaves, hno]
          · have hfind : (node key below rest).find k = rest.find k := by simp [find, hk]
            rw [follow_cons_eq_of_find_eq _ rest k ks hfind, ihr hrest (k :: ks)]
            simp [keyedLeaves, hk]

/-- No leaf stands below a leaf. -/
theorem follow_append_of_leaf {α : Type} (t : KeyTree α) (ks ls : List Text) (v : α)
    (h : t.follow ks = .leaf v) (hls : ls ≠ []) : t.follow (ks ++ ls) = .absent := by
  induction ks generalizing t with
  | nil => simp [follow] at h
  | cons k ks ih =>
      rw [follow] at h
      rw [List.cons_append, follow]
      cases hf : t.find k with
      | absent => rfl
      | leaf w => simp [hls]
      | node below =>
          rw [hf] at h
          exact ih below h

theorem nodup_keyedLeaves {α : Type} (t : KeyTree α) (ht : t.HasDistinctKeys) :
    (t.keyedLeaves.map Prod.fst).Nodup := by
  induction t with
  | nil => exact List.nodup_nil
  | leaf key v rest ih =>
      obtain ⟨hkey, hrest⟩ := ht
      refine List.nodup_cons.2 ⟨?_, ih hrest⟩
      intro hmem
      obtain ⟨⟨ks, w⟩, he, hks⟩ := List.mem_map.1 hmem
      obtain rfl : ks = [key] := hks
      exact hkey (head_mem_keys_of_keyedLeaves rest key [] w he)
  | node key below rest ihb ihr =>
      obtain ⟨hkey, hbelow, hrest⟩ := ht
      rw [keyedLeaves, List.map_append, List.map_map]
      refine List.nodup_append.2 ⟨?_, ihr hrest, ?_⟩
      · have hcons : (Prod.fst ∘ fun e : List Text × α => (key :: e.1, e.2)) =
            (key :: ·) ∘ Prod.fst := rfl
        rw [hcons, ← List.map_map]
        exact (ihb hbelow).map List.cons_injective
      · intro a ha b hb hab
        obtain ⟨⟨ks, w⟩, _, rfl⟩ := List.mem_map.1 ha
        obtain ⟨⟨ls, x⟩, he, rfl⟩ := List.mem_map.1 hb
        obtain rfl : key :: ks = ls := hab
        exact hkey (head_mem_keys_of_keyedLeaves rest key ks x he)

theorem isName_iff (key : Text) : isName key = true ↔ key ≠ [] ∧ separator ∉ key := by
  simp [isName]

theorem misnamedKey_eq_nil_iff (above : List Text) (key : Text) :
    misnamedKey above key = [] ↔ isName key = true := by
  cases h : isName key <;> simp [misnamedKey, h]

theorem misnamed_eq_nil_iff {α : Type} (t : KeyTree α) (above : List Text) :
    t.misnamed above = [] ↔ ∀ k ∈ t.allKeys, isName k = true := by
  induction t generalizing above with
  | nil => simp [misnamed, allKeys]
  | leaf key v rest ih =>
      simp only [misnamed, allKeys, List.append_eq_nil_iff, misnamedKey_eq_nil_iff, ih above,
        List.forall_mem_cons]
  | node key below rest ihb ihr =>
      simp only [misnamed, allKeys, List.append_eq_nil_iff, misnamedKey_eq_nil_iff,
        ihb (above ++ [key]), ihr above, List.forall_mem_cons, List.forall_mem_append, and_assoc]

end KeyTree

theorem Document.checkNames_eq_ok_iff {α : Type} (t : KeyTree α) :
    Document.checkNames t = .ok () ↔ ∀ k ∈ t.allKeys, KeyTree.isName k = true := by
  rw [← KeyTree.misnamed_eq_nil_iff t []]
  unfold Document.checkNames
  cases t.misnamed [] <;> simp

namespace KeyTree

/-- In a tree with usable keys, splitting a path gives back the keys that it was joined from. -/
theorem split_addressOf_of_isName {α : Type} (t : KeyTree α)
    (hnames : ∀ k ∈ t.allKeys, isName k = true) (e : List Text × α) (he : e ∈ t.keyedLeaves) :
    Text.split separator (addressOf [] e.1) = e.1 := by
  refine Text.split_join separator e.1 (keyedLeaves_ne_nil t e he) ?_
  intro k hk
  exact ((isName_iff k).1 (hnames k (mem_allKeys_of_keyedLeaves t e he k hk))).2

theorem map_split_paths_of_isName {α : Type} (t : KeyTree α)
    (hnames : ∀ k ∈ t.allKeys, isName k = true) :
    (t.paths []).map (Text.split separator) = t.keyedLeaves.map Prod.fst := by
  rw [paths_eq_map_keyedLeaves, List.map_map]
  exact List.map_congr_left fun e he => split_addressOf_of_isName t hnames e he

/-- The walk along the keys of a path ends at the leaf that the path belongs to. -/
theorem follow_split_addressOf {α : Type} (t : KeyTree α) (ht : t.HasDistinctKeys)
    (hnames : ∀ k ∈ t.allKeys, isName k = true) (e : List Text × α) (he : e ∈ t.keyedLeaves) :
    t.follow (Text.split separator (addressOf [] e.1)) = .leaf e.2 := by
  rw [split_addressOf_of_isName t hnames e he]
  exact (follow_eq_leaf_iff t ht e.1 e.2).2 he

theorem mem_zip_paths_leaves_iff {α : Type} (t : KeyTree α) (ht : t.HasDistinctKeys)
    (hnames : ∀ k ∈ t.allKeys, isName k = true) (p : Text) (v : α) :
    (p, v) ∈ (t.paths []).zip t.leaves ↔ t.follow (Text.split separator p) = .leaf v := by
  rw [paths_eq_map_keyedLeaves, leaves_eq_map_keyedLeaves, List.zip_map', List.mem_map]
  constructor
  · rintro ⟨e, he, hpv⟩
    obtain ⟨rfl, rfl⟩ := Prod.mk.inj hpv
    exact follow_split_addressOf t ht hnames e he
  · intro h
    refine ⟨(Text.split separator p, v), (follow_eq_leaf_iff t ht _ v).1 h, ?_⟩
    rw [addressOf, List.nil_append, Text.join_split]

theorem follow_withPaths_split_addressOf {α : Type} (t : KeyTree α) (ht : t.HasDistinctKeys)
    (hnames : ∀ k ∈ t.allKeys, isName k = true) (e : List Text × α) (he : e ∈ t.keyedLeaves) :
    (t.withPaths []).follow (Text.split separator (addressOf [] e.1)) =
      .leaf (addressOf [] e.1) := by
  have hdistinct : (t.withPaths []).HasDistinctKeys := by
    rw [← hasDistinctKeys_skeleton, skeleton_withPaths, hasDistinctKeys_skeleton]
    exact ht
  rw [split_addressOf_of_isName t hnames e he, follow_eq_leaf_iff _ hdistinct,
    keyedLeaves_withPaths]
  exact List.mem_map_of_mem he

/-- A path with a separator after it begins no other path: it would lead below a leaf. -/
theorem not_prefix_of_paths {α : Type} (t : KeyTree α) (ht : t.HasDistinctKeys)
    (hnames : ∀ k ∈ t.allKeys, isName k = true) (p q : Text) (hp : p ∈ t.paths [])
    (hq : q ∈ t.paths []) : ¬ (p ++ [separator]) <+: q := by
  rintro ⟨r, rfl⟩
  rw [paths_eq_map_keyedLeaves] at hp hq
  obtain ⟨e, he, rfl⟩ := List.mem_map.1 hp
  obtain ⟨f, hf, hfr⟩ := List.mem_map.1 hq
  have hleaf := follow_split_addressOf t ht hnames f hf
  rw [hfr, List.append_assoc, List.singleton_append, Text.split_append_separator,
    follow_append_of_leaf t _ _ e.2 (follow_split_addressOf t ht hnames e he)
      (Text.split_ne_nil separator r)] at hleaf
  exact nomatch hleaf

/-- In a tree with usable keys, none of them repeated beside itself, paths and leaves are in
bijection: the paths are distinct, none leads below another one, the walk along a path ends at the
leaf in its place, in the tree of paths at the path itself, and whatever keys lead to a leaf, their
join is a path from which splitting gives them back. -/
theorem paths_address_leaves {α : Type} (t : KeyTree α) (ht : t.HasDistinctKeys)
    (hnames : Document.checkNames t = .ok ()) :
    (t.paths []).Nodup ∧
    (∀ p ∈ t.paths [], ∀ q ∈ t.paths [], ¬ (p ++ [separator]) <+: q) ∧
    (t.paths []).map (fun p => t.follow (Text.split separator p)) = t.leaves.map Found.leaf ∧
    (∀ p ∈ t.paths [], (∃ v, t.follow (Text.split separator p) = .leaf v) ∧
      (t.withPaths []).follow (Text.split separator p) = .leaf p) ∧
    ∀ (ks : List Text) (v : α), t.follow ks = .leaf v →
      Text.join [separator] ks ∈ t.paths [] ∧
        Text.split separator (Text.join [separator] ks) = ks := by
  have hall := (Document.checkNames_eq_ok_iff t).1 hnames
  refine ⟨?_, fun p hp q hq => not_prefix_of_paths t ht hall p q hp hq, ?_, ?_, ?_⟩
  · have hsplit := nodup_keyedLeaves t ht
    rw [← map_split_paths_of_isName t hall] at hsplit
    exact hsplit.of_map
  · rw [paths_eq_map_keyedLeaves, leaves_eq_map_keyedLeaves, List.map_map, List.map_map]
    exact List.map_congr_left fun e he => follow_split_addressOf t ht hall e he
  · intro p hp
    rw [paths_eq_map_keyedLeaves] at hp
    obtain ⟨e, he, rfl⟩ := List.mem_map.1 hp
    exact ⟨⟨e.2, follow_split_addressOf t ht hall e he⟩,
      follow_withPaths_split_addressOf t ht hall e he⟩
  · intro ks v hks
    have he := (follow_eq_leaf_iff t ht ks v).1 hks
    refine ⟨?_, split_addressOf_of_isName t hall (ks, v) he⟩
    rw [paths_eq_map_keyedLeaves]
    exact List.mem_map_of_mem (f := fun e : List Text × α => addressOf [] e.1) he

/-- A key that stands again at another depth, and a node without leaves. -/
theorem paths_address_leaves_nested :
    let t : KeyTree Nat :=
      .node "home" (.leaf "title" 1 (.node "empty" .nil (.leaf "url" 2 .nil)))
        (.leaf "title" 3 .nil)
    t.HasDistinctKeys ∧ Document.checkNames t = .ok () ∧
      t.paths [] = ["home.title", "home.url", "title"] ∧
      (t.paths []).map (fun p => t.follow (Text.split separator p)) =
        [Found.leaf 1, Found.leaf 2, Found.leaf 3] := by
  intro t
  have ht : t.HasDistinctKeys := by decide
  have hnames : Document.checkNames t = .ok () := rfl
  exact ⟨ht, hnames, rfl, (paths_address_leaves t ht hnames).2.2.1⟩

end KeyTree

end LocaleKeys
