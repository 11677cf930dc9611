import LocaleKeys.Json.Basic

/-!
# Keyed trees

A keyed tree is an ordered list of entries, each with a key: a *leaf* holds a value, a *node* holds
a keyed tree of its own. A locale document is a keyed tree of JSON values other than objects.

The type is written as a list with two kinds of cons, so that every traversal is a plain recursion:
first the tree below a node, then the entries after it. `paths` lists the dotted path of every leaf
in that order, and `withPaths` puts the path of a leaf in the place of its value. Both carry the
keys above along explicitly.
-/

namespace LocaleKeys

inductive KeyTree (α : Type) where
  | nil
  | leaf (key : Text) (value : α) (rest : KeyTree α)
  | node (key : Text) (below : KeyTree α) (rest : KeyTree α)
deriving Repr, DecidableEq

namespace KeyTree

def separator : CodePoint := '.'

/-- The dotted path of a key below the keys `above`. -/
def pathOf (above : List Text) (key : Text) : Text := Text.join [separator] (above ++ [key])

/-- The dotted paths of the leaves below the keys `above`, in the order of the document. -/
def paths {α : Type} (above : List Text) : KeyTree α → List Text
  | nil => []
  | leaf key _ rest => pathOf above key :: paths above rest
  | node key below rest => paths (above ++ [key]) below ++ paths above rest

/-- The tree in which every leaf holds its own dotted path. -/
def withPaths {α : Type} (above : List Text) : KeyTree α → KeyTree Text
  | nil => nil
  | leaf key _ rest => leaf key (pathOf above key) (withPaths above rest)
  | node key below rest => node key (withPaths (above ++ [key]) below) (withPaths above rest)

def leaves {α : Type} : KeyTree α → List α
  | nil => []
  | leaf _ value rest => value :: leaves rest
  | node _ below rest => leaves below ++ leaves rest

def map {α β : Type} (f : α → β) : KeyTree α → KeyTree β
  | nil => nil
  | leaf key value rest => leaf key (f value) (map f rest)
  | node key below rest => node key (map f below) (map f rest)

/-- Keys, order and shape of a tree without its values. -/
def skeleton {α : Type} (t : KeyTree α) : KeyTree Unit := t.map fun _ => ()

/-- What stands under a key at the top of a tree. -/
inductive Found (α : Type) where
  | absent
  | leaf (value : α)
  | node (below : KeyTree α)

def find {α : Type} (key : Text) : KeyTree α → Found α
  | nil => .absent
  | leaf k value rest => if k = key then .leaf value else find key rest
  | node k below rest => if k = key then .node below else find key rest

mutual

/-- The entries that a list of members stands for: an object is a node, any other value a leaf. -/
def ofMembers : List (Text × Json) → KeyTree Json
  | [] => nil
  | m :: rest => ofMember (ofMembers rest) m
termination_by structural ms => ms

def ofMember (rest : KeyTree Json) : Text × Json → KeyTree Json
  | (key, v) => ofValue key rest v
termination_by structural m => m

def ofValue (key : Text) (rest : KeyTree Json) : Json → KeyTree Json
  | .obj ms => node key (ofMembers ms) rest
  | v => leaf key v rest
termination_by structural v => v

end

def toMembers : KeyTree Text → List (Text × Json)
  | nil => []
  | leaf key value rest => (key, .str value) :: toMembers rest
  | node key below rest => (key, .obj (toMembers below)) :: toMembers rest

end KeyTree

end LocaleKeys
