import LocaleKeys.Path.Basic
import LocaleKeys.Path.Name
import LocaleKeys.Text.Blank

/-!
# Paths as users write them

A path in the options may begin with `~` for the home directory, or `~name` for that of a user, and
may name variables as `$NAME` or `${NAME}`. Both are expanded once: the value of a variable is not
looked at again, and what is unknown stays as it is written. A text that is no name cannot be looked
up. `Path.resolve` then anchors a relative path at a base directory and gives the normal form.
-/

namespace LocaleKeys

/-- Variables and their values; of two entries with one name the first counts. -/
abbrev Variables := List (Text × Text)

/-- What a program is told about itself: its variables, and the home directories of the users that
the system knows. -/
structure Environment where
  bindings : Variables := []
  /-- The home directory of the user who runs the program, if the system knows one. -/
  ownHome : Option Text := none
  homes : List (Text × Text) := []

namespace Environment

def get? (env : Environment) (name : Text) : Option Text := env.bindings.lookup name

/-- The home directory that `~` stands for: the variable comes before what the system knows. -/
def home? (env : Environment) : Option Text := (env.get? "HOME").or env.ownHome

def homeOf? (env : Environment) (user : Text) : Option Text := env.homes.lookup user

end Environment

namespace Path

/-- The home directory in the place of a leading `~` or `~name`. -/
def expandHome (env : Environment) (p : Text) : Except NameFault Text :=
  match p with
  | .scalar '~' :: t =>
      let user := t.takeWhile (· ≠ slash)
      let rest := t.dropWhile (· ≠ slash)
      let placed (home : Option Text) : Text :=
        match home with
        | none => p
        | some home =>
            let q := (home.reverse.dropWhile (· = slash)).reverse ++ rest
            if q.isEmpty then [slash] else q
      if user.isEmpty then .ok (placed env.home?)
      else (Name.check user).map fun _ => placed (env.homeOf? user)
  | _ => .ok p

def isWordPoint : CodePoint → Bool
  | .scalar c => c.isAlphanum || c = '_'
  | .surrogate _ => false

/-- The name of the variable at the front of a text that follows a `$`, and how many code points the
reference takes. -/
def reference? (t : Text) : Option (Text × Nat) :=
  match t with
  | .scalar '\x7b' :: rest =>
      match Text.cut (.scalar '\x7d') rest with
      | (name, some _) => some (name, name.length + 2)
      | (_, none) => none
  | _ =>
      let name := t.takeWhile isWordPoint
      if name.isEmpty then none else some (name, name.length)

def expandVariables (env : Environment) (p : Text) : Except NameFault Text := go 0 p
where
  /-- `skip` counts the code points of a reference that are still to be dropped. -/
  go (skip : Nat) : Text → Except NameFault Text
    | [] => .ok []
    | c :: t =>
        match skip with
        | k + 1 => go k t
        | 0 =>
            if c = .scalar '$' then
              match reference? t with
              | none => (go 0 t).map (c :: ·)
              | some (name, n) => do
                  Name.checkBytes name
                  return (env.get? name).getD (c :: t.take n) ++ (← go n t)
            else (go 0 t).map (c :: ·)

/-- The absolute path that a user means, with relative paths below `base`; none if nothing but
blanks is written. `here` is the current directory. -/
def resolve (env : Environment) (here : Text) (path : Option Text) (base : Text) :
    Except NameFault (Option Text) := do
  let p := Text.trim (path.getD [])
  if p.isEmpty then return none
  let p ← expandVariables env (← expandHome env p)
  return some (absolute here (join base p))

end Path

end LocaleKeys
