import LocaleKeys.Text.Utf8

/-!
# The file store

A store maps locations to files and directories. A location is the list of names from the root down;
the root itself is always a directory. A store is an association list without a second entry for a
location: `set` keeps the place of an entry that is there, so that writing and erasing a new entry
gives the same store back.

Two stores are the same for every reader if `get?` agrees at every location.
-/

namespace LocaleKeys

/-- The names from the root down to a file or directory. -/
abbrev Location := List Text

abbrev Mode := Nat

inductive Entry where
  | file (content : Bytes) (mode : Mode)
  | directory (mode : Mode)
deriving DecidableEq, Repr

namespace Entry

def mode : Entry → Mode
  | file _ m => m
  | directory m => m

end Entry

def masked (mask mode : Mode) : Mode := mode &&& (0o777 ^^^ mask)

/-- The mode of a file made without further instructions, and that of a directory. -/
def newFileMode (mask : Mode) : Mode := masked mask 0o666

def newDirectoryMode (mask : Mode) : Mode := masked mask 0o777

def rootMode : Mode := 0o755

structure Store where
  entries : List (Location × Entry)
deriving Repr

namespace Store

def empty : Store := ⟨[]⟩

def get? (s : Store) (l : Location) : Option Entry :=
  match l with
  | [] => some (.directory rootMode)
  | l => s.entries.lookup l

/-- The entries with the given one at a location: in the place of the old entry, or at the end. -/
def setIn (l : Location) (e : Entry) : List (Location × Entry) → List (Location × Entry)
  | [] => [(l, e)]
  | (k, f) :: es => if k = l then (k, e) :: es else (k, f) :: setIn l e es

def set (s : Store) (l : Location) (e : Entry) : Store := ⟨setIn l e s.entries⟩

def erase (s : Store) (l : Location) : Store := ⟨s.entries.filter (·.1 ≠ l)⟩

def eraseTree (s : Store) (l : Location) : Store := ⟨s.entries.filter (!l.isPrefixOf ·.1)⟩

def moveTree (s : Store) (l m : Location) : Store :=
  ⟨s.entries.map fun (k, e) => (if l.isPrefixOf k then m ++ k.drop l.length else k, e)⟩

def children (s : Store) (l : Location) : List Text :=
  s.entries.filterMap fun (k, _) =>
    if l.isPrefixOf k && k.length = l.length + 1 then k.getLast? else none

/-- Makes the directories on the way to a location, and the location itself, where there is nothing
yet. -/
def makeDirectories (mode : Mode) (s : Store) (l : Location) : Store :=
  (List.range (l.length + 1)).foldl
    (fun s n => if (s.get? (l.take n)).isNone then s.set (l.take n) (.directory mode) else s) s

end Store

end LocaleKeys
