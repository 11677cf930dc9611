import LocaleKeys.Path.Name
import LocaleKeys.Text.Quoted

/-!
# Refusals of the file store

A refusal has a number, a reason and the names of the files concerned; its message shows them as in
`[Errno 2] No such file or directory: 'a/b'`. Before any file is looked for, a path that is no name
is refused.
-/

namespace LocaleKeys

/-- Why the system refuses something. The store itself gives the reasons that have a name; a host
may refuse for others. -/
inductive Refusal where
  | noEntry
  | accessDenied
  | busy
  | notDirectory
  | isDirectory
  | noSpace
  | nameTooLong
  | other (number : Nat) (reason : Text)
deriving DecidableEq, Repr

namespace Refusal

def number : Refusal → Nat
  | noEntry => 2
  | accessDenied => 13
  | busy => 16
  | notDirectory => 20
  | isDirectory => 21
  | noSpace => 28
  | nameTooLong => 36
  | other number _ => number

def reason : Refusal → Text
  | noEntry => "No such file or directory"
  | accessDenied => "Permission denied"
  | busy => "Device or resource busy"
  | notDirectory => "Not a directory"
  | isDirectory => "Is a directory"
  | noSpace => "No space left on device"
  | nameTooLong => "File name too long"
  | other _ reason => reason

end Refusal

/-- A refusal with its number, its reason and the files concerned. -/
structure SystemError where
  number : Int
  reason : Text
  file : Option Text
  target : Option Text
deriving DecidableEq, Repr

namespace SystemError

def about (r : Refusal) (file : Text) : SystemError := ⟨r.number, r.reason, some file, none⟩

def moving (r : Refusal) (file target : Text) : SystemError :=
  ⟨r.number, r.reason, some file, some target⟩

def message (e : SystemError) : Text :=
  let files : Text :=
    match e.file, e.target with
    | none, _ => []
    | some f, none => ": " ++ Text.quoted f
    | some f, some t => ": " ++ Text.quoted f ++ " -> " ++ Text.quoted t
  "[Errno " ++ Text.ofInt e.number ++ "] " ++ e.reason ++ files

end SystemError

inductive StoreFault where
  | system (e : SystemError)
  | name (f : NameFault)
deriving DecidableEq, Repr

end LocaleKeys
