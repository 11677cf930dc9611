import LocaleKeys.Config.Value
import LocaleKeys.Text.Blank
import LocaleKeys.Text.Fold

/-!
# Log records

A record has a severity, the name of the part of the program it comes from, and a message.
`Severity.ofWord` reads the severity that a user asks for; a word that names none means `info`.
-/

namespace LocaleKeys

inductive Severity where
  | debug
  | info
  | warning
  | error
  | critical
deriving DecidableEq, Repr

namespace Severity

/-- The rank of a severity among the numbers that other programs use for theirs. -/
def rank : Severity → Nat
  | debug => 10
  | info => 20
  | warning => 30
  | error => 40
  | critical => 50

def name : Severity → Text
  | debug => "DEBUG"
  | info => "INFO"
  | warning => "WARNING"
  | error => "ERROR"
  | critical => "CRITICAL"

def words : List (Text × Severity) :=
  [("DEBUG", debug), ("INFO", info), ("WARNING", warning), ("WARN", warning), ("ERROR", error),
    ("CRITICAL", critical)]

def ofWord (word : Text) : Severity := (words.lookup (Text.upper (Text.trim word))).getD info

def ofValue (v : Value) : Severity := if v.isTruthy then ofWord v.text else info

end Severity

structure Record where
  severity : Severity
  source : Text
  message : Text
deriving DecidableEq, Repr

namespace Record

def consoleLine (r : Record) : Text := r.severity.name ++ " | " ++ r.message

def fileLine (time : Text) (r : Record) : Text :=
  time ++ " | " ++ r.severity.name ++ " | " ++ r.source ++ " | " ++ r.message

end Record

end LocaleKeys
