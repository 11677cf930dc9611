import LocaleKeys.Artifact.Rendering
import LocaleKeys.Proofs.KeyTree.Printing

/-!
# The blocks of the artifacts

The lines of the union are its first line and one line for each path, and none of them is empty, so
that the empty line after it separates it from the constant. The string literals give the paths
back. Each text therefore determines what it is rendered from: the union the paths, the constant the
tree of paths and with it the skeleton (`keysFile_eq_iff`, `typesFile_eq_iff`).
-/

namespace LocaleKeys

namespace Json

theorem read_quote (t : Text) (ht : t.isScalar = true) : read (quote t).toChars = .ok (.str t) :=
  read_print (.str t) (.str t ht)

theorem not_mem_quote (t : Text) : CodePoint.scalar '\n' ∉ quote t :=
  fun h => absurd (le_value_of_mem_quote t _ h) (by decide)

theorem eq_of_map_quote_eq (ts us : List Text) (hts : ∀ t ∈ ts, t.isScalar = true)
    (hus : ∀ u ∈ us, u.isScalar = true) (h : ts.map quote = us.map quote) : ts = us := by
  have hread : ∀ ts : List Text, (∀ t ∈ ts, t.isScalar = true) →
      (ts.map quote).map (fun l => read l.toChars) = ts.map fun t => .ok (.str t) := by
    intro ts hts
    rw [List.map_map]
    exact List.map_congr_left fun t ht => read_quote t (hts t ht)
  have heq := hread ts hts
  rw [h, hread us hus] at heq
  refine ((List.map_inj_right ?_).1 heq).symm
  intro t u htu
  exact Json.str.inj (Except.ok.inj htu)

end Json

namespace Rendering

def unionHead : Text := "export type TranslationKey ="

def neverUnion : Text := "export type TranslationKey = never;"

/-- The lines of the members of a union with the given string literals; the last one closes the
union. -/
def memberLines : List Text → List Text
  | [] => []
  | [l] => ["  | " ++ l ++ ";"]
  | l :: m :: ls => ("  | " ++ l) :: memberLines (m :: ls)

theorem not_mem_unionMember (path : Text) : CodePoint.scalar '\n' ∉ unionMember path := by
  intro h
  rcases List.mem_append.1 h with h | h
  · exact absurd h (by decide)
  · exact Json.not_mem_quote path h

theorem not_mem_unionMember_append (path : Text) :
    CodePoint.scalar '\n' ∉ unionMember path ++ (";" : Text) := by
  intro h
  rcases List.mem_append.1 h with h | h
  · exact not_mem_unionMember path h
  · exact absurd h (by decide)

theorem union_of_ne_nil (paths : List Text) (h : paths ≠ []) :
    union paths = unionHead ++ CodePoint.scalar '\n' ::
      (Text.join [CodePoint.scalar '\n'] (paths.map unionMember) ++ (";" : Text)) := by
  cases paths with
  | nil => exact absurd rfl h
  | cons p ps => rfl

theorem split_join_unionMember (paths : List Text) (h : paths ≠ []) :
    Text.split '\n' (Text.join [CodePoint.scalar '\n'] (paths.map unionMember) ++ (";" : Text)) =
      memberLines (paths.map Json.quote) := by
  induction paths with
  | nil => exact absurd rfl h
  | cons p ps ih =>
      cases ps with
      | nil => exact Text.split_of_not_mem '\n' _ (not_mem_unionMember_append p)
      | cons q qs =>
          have hjoin := Text.join_cons_of_ne_nil [CodePoint.scalar '\n'] (unionMember p)
            ((q :: qs).map unionMember) (by simp)
          rw [List.map_cons, hjoin, List.append_assoc, List.append_assoc, List.singleton_append,
            Text.split_append_separator, Text.split_of_not_mem '\n' _ (not_mem_unionMember p),
            ih (List.cons_ne_nil q qs)]
          rfl

theorem split_union (paths : List Text) (h : paths ≠ []) :
    Text.split '\n' (union paths) = unionHead :: memberLines (paths.map Json.quote) := by
  rw [union_of_ne_nil paths h, Text.split_append_separator, split_join_unionMember paths h]
  rfl

theorem length_memberLines (ls : List Text) : (memberLines ls).length = ls.length := by
  induction ls with
  | nil => rfl
  | cons l ls ih =>
      cases ls with
      | nil => rfl
      | cons m ms => exact congrArg Nat.succ ih

theorem nil_not_mem_memberLines (ls : List Text) : [] ∉ memberLines ls := by
  induction ls with
  | nil => exact List.not_mem_nil
  | cons l ls ih =>
      cases ls with
      | nil => exact fun h => nomatch List.mem_singleton.1 h
      | cons m ms =>
          intro h
          rcases List.mem_cons.1 h with h | h
          · exact nomatch h
          · exact ih h

theorem split_neverUnion : Text.split '\n' neverUnion = [neverUnion] := by decide

theorem nil_not_mem_split_union (paths : List Text) : [] ∉ Text.split '\n' (union paths) := by
  by_cases hp : paths = []
  · subst hp
    intro h
    rw [union, ← neverUnion, split_neverUnion] at h
    exact absurd (List.mem_singleton.1 h) (by decide)
  · rw [split_union paths hp]
    intro h
    rcases List.mem_cons.1 h with h | h
    · exact nomatch h
    · exact nil_not_mem_memberLines _ h

theorem union_eq_neverUnion_iff (paths : List Text) : union paths = neverUnion ↔ paths = [] := by
  constructor
  · intro h
    by_cases hp : paths = []
    · exact hp
    · have hlines := split_union paths hp
      rw [h, split_neverUnion] at hlines
      exact absurd (List.cons.inj hlines).1 (by decide)
  · rintro rfl
    rfl

theorem eq_of_union_eq (ps qs : List Text) (hps : ∀ p ∈ ps, p.isScalar = true)
    (hqs : ∀ q ∈ qs, q.isScalar = true) (h : union ps = union qs) : ps = qs := by
  by_cases hp : ps = []
  · subst hp
    exact ((union_eq_neverUnion_iff qs).1 h.symm).symm
  · by_cases hq : qs = []
    · subst hq
      exact (union_eq_neverUnion_iff ps).1 h
    · rw [union_of_ne_nil ps hp, union_of_ne_nil qs hq] at h
      -- No member holds a line break, so that the lines give the members back.
      have hjoin := List.append_cancel_right (List.cons.inj (List.append_cancel_left h)).2
      have hmember : ∀ (rs : List Text), ∀ m ∈ rs.map unionMember, CodePoint.scalar '\n' ∉ m := by
        intro rs m hm
        obtain ⟨r, -, rfl⟩ := List.mem_map.1 hm
        exact not_mem_unionMember r
      have hsplit := congrArg (Text.split '\n') hjoin
      rw [Text.split_join '\n' _ (by simpa using hp) (hmember ps),
        Text.split_join '\n' _ (by simpa using hq) (hmember qs)] at hsplit
      refine Json.eq_of_map_quote_eq ps qs hps hqs ?_
      have hdrop := congrArg (List.map (List.drop 4)) hsplit
      rw [List.map_map, List.map_map] at hdrop
      exact hdrop

theorem print_eq_of_constant_eq (ms ns : List (Text × Json)) (h : constant ms = constant ns) :
    Json.print (.obj ms) = Json.print (.obj ns) :=
  List.append_cancel_left (List.append_cancel_right h)

theorem eq_of_append_cons_eq {α : Type} (a : α) (xs ys zs ws : List α) (hxs : a ∉ xs)
    (hys : a ∉ ys) (h : xs ++ a :: zs = ys ++ a :: ws) : xs = ys ∧ zs = ws := by
  induction xs generalizing ys with
  | nil =>
      cases ys with
      | nil => exact ⟨rfl, (List.cons.inj h).2⟩
      | cons y ys => exact absurd ((List.cons.inj h).1 ▸ List.mem_cons_self) hys
  | cons x xs ih =>
      cases ys with
      | nil => exact absurd ((List.cons.inj h).1 ▸ List.mem_cons_self) hxs
      | cons y ys =>
          obtain ⟨hxy, hrest⟩ := List.cons.inj h
          obtain ⟨rfl, hzw⟩ := ih ys (fun hmem => hxs (List.mem_cons_of_mem _ hmem))
            (fun hmem => hys (List.mem_cons_of_mem _ hmem)) hrest
          exact ⟨by rw [hxy], hzw⟩

theorem split_union_append (paths : List Text) (rest : Text) :
    Text.split '\n' (union paths ++ "\n\n" ++ rest) =
      Text.split '\n' (union paths) ++ [] :: Text.split '\n' rest := by
  have htwo : union paths ++ "\n\n" ++ rest =
      union paths ++ CodePoint.scalar '\n' :: CodePoint.scalar '\n' :: rest := by
    rw [List.append_assoc]
    rfl
  rw [htwo, Text.split_append_separator, Text.split_cons_self]

/-- The empty line after the union shows where the union ends. -/
theorem eq_of_union_append_eq (ps qs : List Text) (r s : Text)
    (h : union ps ++ "\n\n" ++ r = union qs ++ "\n\n" ++ s) : union ps = union qs ∧ r = s := by
  have hsplit := congrArg (Text.split '\n') h
  rw [split_union_append, split_union_append] at hsplit
  obtain ⟨hu, hr⟩ := eq_of_append_cons_eq [] _ _ _ _ (nil_not_mem_split_union ps)
    (nil_not_mem_split_union qs) hsplit
  constructor
  · rw [← Text.join_split '\n' (union ps), hu, Text.join_split]
  · rw [← Text.join_split '\n' r, hr, Text.join_split]

theorem join_eq_of_file_eq (header bs cs : List Text) (h : file header bs = file header cs) :
    Text.join "\n\n" bs = Text.join "\n\n" cs :=
  List.append_cancel_left (List.append_cancel_right h)

variable {α β : Type}

def constantMembers (t : KeyTree α) : List (Text × Json) := (t.withPaths []).toMembers

theorem hasDistinctKeys_withPaths (t : KeyTree α) (h : t.HasDistinctKeys) :
    (t.withPaths []).HasDistinctKeys := by
  rw [← KeyTree.hasDistinctKeys_skeleton, KeyTree.skeleton_withPaths,
    KeyTree.hasDistinctKeys_skeleton]
  exact h

theorem allKeys_withPaths (t : KeyTree α) : (t.withPaths []).allKeys = t.allKeys :=
  KeyTree.allKeys_eq_of_skeleton_eq _ t (KeyTree.skeleton_withPaths t [])

theorem hasScalarKeys_withPaths (t : KeyTree α) :
    (t.withPaths []).HasScalarKeys ↔ t.HasScalarKeys := by
  rw [KeyTree.HasScalarKeys, allKeys_withPaths, KeyTree.HasScalarKeys]

theorem isScalar_leaves_withPaths (t : KeyTree α) (h : t.HasScalarKeys) :
    ∀ l ∈ (t.withPaths []).leaves, l.isScalar = true := by
  rw [KeyTree.leaves_withPaths]
  exact KeyTree.isScalar_paths t h

theorem isPlain_constantMembers (t : KeyTree α) (hd : t.HasDistinctKeys) (hs : t.HasScalarKeys) :
    (Json.obj (constantMembers t)).IsPlain :=
  KeyTree.isPlain_toMembers (t.withPaths []) (hasDistinctKeys_withPaths t hd)
    ((hasScalarKeys_withPaths t).2 hs) (isScalar_leaves_withPaths t hs)

theorem skeleton_eq_of_constant_eq (t : KeyTree α) (u : KeyTree β) (htd : t.HasDistinctKeys)
    (hts : t.HasScalarKeys) (hud : u.HasDistinctKeys) (hus : u.HasScalarKeys)
    (h : constant (constantMembers t) = constant (constantMembers u)) :
    t.skeleton = u.skeleton := by
  have hobj := Json.eq_of_print_eq _ _ (isPlain_constantMembers t htd hts)
    (isPlain_constantMembers u hud hus) (print_eq_of_constant_eq _ _ h)
  have htree := congrArg KeyTree.ofMembers (Json.obj.inj hobj)
  rw [constantMembers, constantMembers, KeyTree.ofMembers_toMembers,
    KeyTree.ofMembers_toMembers] at htree
  have hskeleton := congrArg KeyTree.skeleton htree
  rwa [KeyTree.skeleton_map, KeyTree.skeleton_map, KeyTree.skeleton_withPaths,
    KeyTree.skeleton_withPaths] at hskeleton

def keysFile (mode : OutputMode) (lint : Bool) (paths : List Text) (members : List (Text × Json)) :
    Text :=
  match mode with
  | .single => file (header keysDescription lint) [union paths, constant members]
  | .dual => file (header keysDescription lint) [reexport, constant members]

def typesFile (lint : Bool) (paths : List Text) : Text :=
  file (header typesDescription lint) [union paths]

/-- The file of the constant is the same for two trees exactly if they have the same skeleton. -/
theorem keysFile_eq_iff (mode : OutputMode) (lint : Bool) (t : KeyTree α) (u : KeyTree β)
    (htd : t.HasDistinctKeys) (hts : t.HasScalarKeys) (hud : u.HasDistinctKeys)
    (hus : u.HasScalarKeys) :
    keysFile mode lint (t.paths []) (constantMembers t) =
        keysFile mode lint (u.paths []) (constantMembers u) ↔
      t.skeleton = u.skeleton := by
  constructor
  · intro h
    refine skeleton_eq_of_constant_eq t u htd hts hud hus ?_
    cases mode with
    | single => exact (eq_of_union_append_eq _ _ _ _ (join_eq_of_file_eq _ _ _ h)).2
    | dual => exact List.append_cancel_left (join_eq_of_file_eq _ _ _ h)
  · intro h
    rw [constantMembers, constantMembers, (KeyTree.withPaths_eq_iff t u []).2 h,
      KeyTree.paths_eq_of_skeleton_eq t u [] h]

/-- The file of the type is the same for two lists of paths exactly if they are the same list. -/
theorem typesFile_eq_iff (lint : Bool) (ps qs : List Text) (hps : ∀ p ∈ ps, p.isScalar = true)
    (hqs : ∀ q ∈ qs, q.isScalar = true) :
    typesFile lint ps = typesFile lint qs ↔ ps = qs := by
  constructor
  · intro h
    exact eq_of_union_eq ps qs hps hqs (join_eq_of_file_eq _ _ _ h)
  · intro h
    rw [h]

end Rendering

end LocaleKeys
