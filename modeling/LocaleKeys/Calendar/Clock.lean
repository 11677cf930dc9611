import LocaleKeys.Calendar.Date

/-!
# Clock readings

Seconds since the beginning of the year 1970 as a date and a time of day, in universal time.
-/

namespace LocaleKeys

namespace Date

/-- The month and the day that are `days` days after the beginning of a year, from `month` on. -/
def inYear (year : Nat) : (months month days : Nat) → Nat × Nat
  | 0, month, days => (month, days + 1)
  | months + 1, month, days =>
      if days < daysIn year month then (month, days + 1)
      else inYear year months (month + 1) (days - daysIn year month)

/-- The date that is `days` days after the first day of the year 1. The days of four hundred, of a
hundred, of four years and of one year are taken off in turn. -/
def afterDays (days : Nat) : Date :=
  let (eras, days) := (days / 146097, days % 146097)
  let centuries := min (days / 36524) 3
  let days := days - centuries * 36524
  let (olympiads, days) := (days / 1461, days % 1461)
  let years := min (days / 365) 3
  let year := eras * 400 + centuries * 100 + olympiads * 4 + years + 1
  let (month, day) := inYear year 11 1 (days - years * 365)
  ⟨year, month, day⟩

end Date

namespace DateTime

def epochDays : Nat := 719162

def ofSeconds (n : Nat) : DateTime :=
  { date := Date.afterDays (epochDays + n / 86400)
    hour := n % 86400 / 3600
    minute := n % 3600 / 60
    second := n % 60
    microsecond := 0
    offset := none }

end DateTime

end LocaleKeys
