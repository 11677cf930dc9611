import LocaleKeys.Store.Basic

/-!
# Differences between stores

What has to be done to one store so that it agrees with another one: entries are made, changed and
taken away. `differences` lists them by location, and is empty for a store and itself.
-/

namespace LocaleKeys

inductive Change where
  | created (e : Entry)
  | modified (e : Entry)
  | removed
deriving DecidableEq, Repr

namespace Store

def changeAt? (before after : Store) (l : Location) : Option Change :=
  match before.get? l, after.get? l with
  | none, none => none
  | none, some e => some (.created e)
  | some _, none => some .removed
  | some e, some f => if e = f then none else some (.modified f)

def differences (before after : Store) : List (Location × Change) :=
  let gone := before.entries.filter fun (l, _) => (after.get? l).isNone
  (after.entries ++ gone).filterMap fun (l, _) => (changeAt? before after l).map (l, ·)

end Store

end LocaleKeys
