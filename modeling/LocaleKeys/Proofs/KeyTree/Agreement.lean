import LocaleKeys.Proofs.KeyTree.Shape
import LocaleKeys.Proofs.Text.Segments

/-!
# The paths and the tree of paths agree

`paths` and `withPaths` both carry the keys above along as a list and join them at every leaf.
Two walks that know nothing of that list are put beside them: `pathsAfter` carries one text, the
keys above with a separator after each of them, and `Json.leafPaths` does the same on the members of
a document, where an object is descended into and every other value, an array included, is a leaf.
-/

namespace LocaleKeys

namespace KeyTree

/-- The paths of the leaves, each with `before` in front of it; below a node `before` grows by the
key of the node and a separator. -/
def pathsAfter {α : Type} (before : Text) : KeyTree α → List Text
  | nil => []
  | leaf key _ rest => (before ++ key) :: pathsAfter before rest
  | node key below rest => pathsAfter (before ++ key ++ [separator]) below ++ pathsAfter before rest

def beforeOf (above : List Text) : Text := above.flatMap (· ++ [separator])

theorem beforeOf_append_singleton (above : List Text) (key : Text) :
    beforeOf (above ++ [key]) = beforeOf above ++ key ++ [separator] := by
  simp [beforeOf]

theorem pathOf_eq_beforeOf_append (above : List Text) (key : Text) :
    pathOf above key = beforeOf above ++ key :=
  Text.join_append_singleton [separator] above key

theorem paths_eq_pathsAfter {α : Type} (t : KeyTree α) (above : List Text) :
    t.paths above = t.pathsAfter (beforeOf above) := by
  induction t generalizing above with
  | nil => rfl
  | leaf key v rest ih => rw [paths, pathsAfter, pathOf_eq_beforeOf_append, ih]
  | node key below rest ihb ihr =>
      rw [paths, pathsAfter, ihb, ihr, beforeOf_append_singleton]

/-- The leaves of the tree of paths are the paths, one by one. -/
theorem leaves_withPaths {α : Type} (t : KeyTree α) (above : List Text) :
    (t.withPaths above).leaves = t.paths above := by
  induction t generalizing above with
  | nil => rfl
  | leaf key v rest ih => rw [withPaths, leaves, paths, ih]
  | node key below rest ihb ihr => rw [withPaths, leaves, paths, ihb, ihr]

end KeyTree

namespace Json

mutual

/-- The paths of the members of an object, each with `before` in front of it. -/
def leafPaths (before : Text) : List (Text × Json) → List Text
  | [] => []
  | m :: ms => memberPaths before m ++ leafPaths before ms
termination_by structural ms => ms

def memberPaths (before : Text) : Text × Json → List Text
  | (key, v) => valuePaths (before ++ key) v
termination_by structural m => m

/-- The paths in a value that has a path itself: that path, unless the value is an object. -/
def valuePaths (path : Text) : Json → List Text
  | .obj ms => leafPaths (path ++ [KeyTree.separator]) ms
  | _ => [path]
termination_by structural v => v

end

end Json

namespace KeyTree

mutual

theorem pathsAfter_ofMembers (before : Text) :
    (ms : List (Text × Json)) → (ofMembers ms).pathsAfter before = Json.leafPaths before ms
  | [] => rfl
  | m :: ms => by
      rw [ofMembers, Json.leafPaths, pathsAfter_ofMember before (ofMembers ms) m,
        pathsAfter_ofMembers before ms]
termination_by structural ms => ms

theorem pathsAfter_ofMember (before : Text) (rest : KeyTree Json) : (m : Text × Json) →
    (ofMember rest m).pathsAfter before = Json.memberPaths before m ++ rest.pathsAfter before
  | (key, v) => by rw [ofMember, Json.memberPaths, pathsAfter_ofValue before key rest v]
termination_by structural m => m

theorem pathsAfter_ofValue (before key : Text) (rest : KeyTree Json) : (v : Json) →
    (ofValue key rest v).pathsAfter before =
      Json.valuePaths (before ++ key) v ++ rest.pathsAfter before
  | .obj ms => by
      rw [ofValue, Json.valuePaths, pathsAfter,
        pathsAfter_ofMembers (before ++ key ++ [separator]) ms]
  | .null | .bool _ | .int _ | .float _ | .str _ | .arr _ => rfl
termination_by structural v => v

end

/-- The tree of paths has the shape of its tree, its leaves are the paths one by one, and the paths
are those of the walk that carries a text; for a document they are those of the walk over its
members. -/
theorem withPaths_agrees_with_paths {α : Type} (t : KeyTree α) (members : List (Text × Json)) :
    ((t.withPaths []).skeleton = t.skeleton ∧ (t.withPaths []).leaves = t.paths [] ∧
      t.paths [] = t.pathsAfter []) ∧
    (ofMembers members).paths [] = Json.leafPaths [] members := by
  refine ⟨⟨skeleton_withPaths t [], leaves_withPaths t [], paths_eq_pathsAfter t []⟩, ?_⟩
  rw [paths_eq_pathsAfter]
  exact pathsAfter_ofMembers [] members

end KeyTree

end LocaleKeys
