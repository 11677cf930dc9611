import LocaleKeys.KeyTree.Basic

/-!
# The shape of a keyed tree

Keys, order and shape of a tree are its skeleton, and everything that does not look at the values
can be read off it: the paths, the tree of paths, and the keys at every depth. The tree of paths
has the skeleton of the tree it is made from, so it carries the skeleton and nothing else
(`withPaths_eq_iff`).
-/

namespace LocaleKeys

namespace KeyTree

def keys {α : Type} : KeyTree α → List Text
  | nil => []
  | leaf key _ rest => key :: keys rest
  | node key _ rest => key :: keys rest

/-- The keys at every depth, a key before the keys below it. -/
def allKeys {α : Type} : KeyTree α → List Text
  | nil => []
  | leaf key _ rest => key :: allKeys rest
  | node key below rest => key :: (allKeys below ++ allKeys rest)

/-- Whether no key is repeated beside itself; below another key it may stand again. -/
def HasDistinctKeys {α : Type} : KeyTree α → Prop
  | nil => True
  | leaf key _ rest => key ∉ keys rest ∧ HasDistinctKeys rest
  | node key below rest => key ∉ keys rest ∧ HasDistinctKeys below ∧ HasDistinctKeys rest

instance decidableHasDistinctKeys {α : Type} : (t : KeyTree α) → Decidable t.HasDistinctKeys
  | nil => .isTrue trivial
  | leaf key _ rest =>
      have := decidableHasDistinctKeys rest
      inferInstanceAs (Decidable (key ∉ keys rest ∧ HasDistinctKeys rest))
  | node key below rest =>
      have := decidableHasDistinctKeys below
      have := decidableHasDistinctKeys rest
      inferInstanceAs (Decidable (key ∉ keys rest ∧ HasDistinctKeys below ∧ HasDistinctKeys rest))

theorem skeleton_map {α β : Type} (f : α → β) (t : KeyTree α) :
    (t.map f).skeleton = t.skeleton := by
  induction t with
  | nil => rfl
  | leaf key v rest ih => exact congrArg (leaf key ()) ih
  | node key below rest ihb ihr => exact congr (congrArg (node key) ihb) ihr

theorem skeleton_withPaths {α : Type} (t : KeyTree α) (above : List Text) :
    (t.withPaths above).skeleton = t.skeleton := by
  induction t generalizing above with
  | nil => rfl
  | leaf key v rest ih => exact congrArg (leaf key ()) (ih above)
  | node key below rest ihb ihr =>
      exact congr (congrArg (node key) (ihb (above ++ [key]))) (ihr above)

theorem paths_skeleton {α : Type} (t : KeyTree α) (above : List Text) :
    t.skeleton.paths above = t.paths above := by
  induction t generalizing above with
  | nil => rfl
  | leaf key v rest ih => exact congrArg (pathOf above key :: ·) (ih above)
  | node key below rest ihb ihr =>
      exact congr (congrArg List.append (ihb (above ++ [key]))) (ihr above)

theorem withPaths_skeleton {α : Type} (t : KeyTree α) (above : List Text) :
    t.skeleton.withPaths above = t.withPaths above := by
  induction t generalizing above with
  | nil => rfl
  | leaf key v rest ih => exact congrArg (leaf key (pathOf above key)) (ih above)
  | node key below rest ihb ihr =>
      exact congr (congrArg (node key) (ihb (above ++ [key]))) (ihr above)

theorem keys_skeleton {α : Type} (t : KeyTree α) : t.skeleton.keys = t.keys := by
  induction t with
  | nil => rfl
  | leaf key v rest ih => exact congrArg (key :: ·) ih
  | node key below rest _ ihr => exact congrArg (key :: ·) ihr

theorem allKeys_skeleton {α : Type} (t : KeyTree α) : t.skeleton.allKeys = t.allKeys := by
  induction t with
  | nil => rfl
  | leaf key v rest ih => exact congrArg (key :: ·) ih
  | node key below rest ihb ihr =>
      exact congrArg (key :: ·) (congr (congrArg List.append ihb) ihr)

theorem hasDistinctKeys_skeleton {α : Type} (t : KeyTree α) :
    t.skeleton.HasDistinctKeys ↔ t.HasDistinctKeys := by
  induction t with
  | nil => exact Iff.rfl
  | leaf key v rest ih =>
      have hk : (leaf key v rest).skeleton = leaf key () rest.skeleton := rfl
      rw [hk, HasDistinctKeys, HasDistinctKeys, keys_skeleton, ih]
  | node key below rest ihb ihr =>
      have hk : (node key below rest).skeleton = node key below.skeleton rest.skeleton := rfl
      rw [hk, HasDistinctKeys, HasDistinctKeys, keys_skeleton, ihb, ihr]

/-- The tree of paths carries the skeleton and nothing else. -/
theorem withPaths_eq_iff {α β : Type} (t : KeyTree α) (u : KeyTree β) (above : List Text) :
    t.withPaths above = u.withPaths above ↔ t.skeleton = u.skeleton := by
  constructor
  · intro h
    rw [← skeleton_withPaths t above, h, skeleton_withPaths u above]
  · intro h
    rw [← withPaths_skeleton t above, h, withPaths_skeleton u above]

theorem paths_eq_of_skeleton_eq {α β : Type} (t : KeyTree α) (u : KeyTree β) (above : List Text)
    (h : t.skeleton = u.skeleton) : t.paths above = u.paths above := by
  rw [← paths_skeleton t above, h, paths_skeleton u above]

theorem allKeys_eq_of_skeleton_eq {α β : Type} (t : KeyTree α) (u : KeyTree β)
    (h : t.skeleton = u.skeleton) : t.allKeys = u.allKeys := by
  rw [← allKeys_skeleton t, h, allKeys_skeleton u]

end KeyTree

end LocaleKeys
