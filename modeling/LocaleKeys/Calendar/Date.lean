import LocaleKeys.Number.Digits

/-!
# Dates and times

Dates of the years 1 to 9999 and times of day, with an offset from universal time if one is given.
`Date.make` and `DateTime.make` refuse what is no date, naming the first part that is wrong.
-/

namespace LocaleKeys

inductive DateFault where
  | year (n : Nat)
  | month
  | day
  | hour
  | minute
  | second
  | offset (minutes : Int)
deriving DecidableEq, Repr

/-- A number of minutes as days and seconds, the seconds not negative. -/
def durationText (minutes : Int) : Text :=
  let days := minutes.fdiv 1440
  let seconds := minutes.fmod 1440 * 60
  "datetime.timedelta(days=" ++ Text.ofInt days ++
    (if seconds = 0 then ([] : Text) else ", seconds=" ++ Text.ofInt seconds) ++ ")"

def DateFault.message : DateFault → Text
  | year n => "year " ++ Text.ofNat n ++ " is out of range"
  | month => "month must be in 1..12"
  | day => "day is out of range for month"
  | hour => "hour must be in 0..23"
  | minute => "minute must be in 0..59"
  | second => "second must be in 0..59"
  | offset n =>
      "offset must be a timedelta strictly between -timedelta(hours=24) and " ++
        "timedelta(hours=24), not " ++ durationText n ++ "."

structure Date where
  year : Nat
  month : Nat
  day : Nat
deriving DecidableEq, Repr

namespace Date

def isLeap (year : Nat) : Bool := year % 4 = 0 && (year % 100 ≠ 0 || year % 400 = 0)

def daysIn (year month : Nat) : Nat :=
  if month = 2 then (if isLeap year then 29 else 28)
  else if month = 4 || month = 6 || month = 9 || month = 11 then 30
  else 31

def make (year month day : Nat) : Except DateFault Date :=
  if year < 1 ∨ 9999 < year then .error (.year year)
  else if month < 1 ∨ 12 < month then .error .month
  else if day < 1 ∨ daysIn year month < day then .error .day
  else .ok ⟨year, month, day⟩

def text (d : Date) : Text :=
  Text.ofChars (Digits.padded 10 4 d.year ++ '-' :: Digits.padded 10 2 d.month ++
    '-' :: Digits.padded 10 2 d.day)

def daysBefore (year : Nat) : (months : Nat) → Nat
  | 0 => 0
  | months + 1 => daysBefore year months + daysIn year (months + 1)

def ordinal (d : Date) : Nat :=
  let y := d.year - 1
  y * 365 + y / 4 - y / 100 + y / 400 + daysBefore d.year (d.month - 1) + d.day

end Date

structure DateTime where
  date : Date
  hour : Nat
  minute : Nat
  second : Nat
  microsecond : Nat
  /-- Minutes east of universal time. -/
  offset : Option Int
deriving DecidableEq, Repr

namespace DateTime

def make (year month day hour minute second microsecond : Nat) (offset : Option Int) :
    Except DateFault DateTime := do
  match offset with
  | some n => if 1440 ≤ n.natAbs then throw (.offset n)
  | none => pure ()
  let date ← Date.make year month day
  if 23 < hour then throw .hour
  if 59 < minute then throw .minute
  if 59 < second then throw .second
  return ⟨date, hour, minute, second, microsecond, offset⟩

def text (separator : Char) (t : DateTime) : Text :=
  let two (n : Nat) : List Char := Digits.padded 10 2 n
  let fraction := if t.microsecond = 0 then [] else '.' :: Digits.padded 10 6 t.microsecond
  let offset := match t.offset with
    | none => []
    | some n => (if n < 0 then '-' else '+') :: (two (n.natAbs / 60) ++ ':' :: two (n.natAbs % 60))
  t.date.text ++ Text.ofChars
    (separator :: (two t.hour ++ ':' :: two t.minute ++ ':' :: two t.second ++ fraction ++ offset))

def instant? (t : DateTime) : Option Int :=
  t.offset.map fun n =>
    ((((t.date.ordinal * 24 + t.hour : Nat) * 60 + t.minute : Int) - n) * 60 + t.second) * 1000000 +
      t.microsecond

/-- Whether two times are the same: the same instant if both have an offset, the same reading if
none has. -/
def same (s t : DateTime) : Bool :=
  match s.instant?, t.instant? with
  | some a, some b => a = b
  | none, none => decide (s = t)
  | _, _ => false

end DateTime

end LocaleKeys
