import SigmaDesk.Yaml.Fault

/-!
# Dates in YAML

A plain scalar may be a date, or a date with a time of day and maybe an offset from universal time.
Its text is laid out anew.
-/

namespace SigmaDesk.Yaml

structure Date where
  year : Nat
  month : Nat
  day : Nat
deriving DecidableEq, Repr

/-- A time of day; `offset` is in minutes. -/
structure Time where
  hour : Nat
  minute : Nat
  second : Nat
  micros : Nat
  offset : Option Int
deriving DecidableEq, Repr

structure Timestamp where
  date : Date
  time : Option Time
deriving DecidableEq, Repr

def isLeapYear (y : Nat) : Bool := y % 4 == 0 && (y % 100 != 0 || y % 400 == 0)

def daysOf (year month : Nat) : Nat :=
  if month = 2 then (if isLeapYear year then 29 else 28)
  else if month ∈ [4, 6, 9, 11] then 30 else 31

def Date.fault? (d : Date) : Option Fault :=
  if d.year = 0 then some (.year d.year)
  else if d.month < 1 ∨ 12 < d.month then some .month
  else if d.day < 1 ∨ daysOf d.year d.month < d.day then some .day
  else none

def Time.fault? (t : Time) : Option Fault :=
  if 23 < t.hour then some .hour
  else if 59 < t.minute then some .minute
  else if 59 < t.second then some .second
  else none

/-- An offset is less than a day. It is looked at first, then the date, then the time. -/
def Timestamp.fault? (t : Timestamp) : Option Fault :=
  let offset := (t.time.bind (·.offset)).bind fun n =>
    if n.natAbs < 1440 then none else some (Fault.offset (.ofMinutes n))
  offset.or (t.date.fault?.or (t.time.bind (·.fault?)))

def digitsValue (cs : List Char) : Nat := cs.foldl (fun n c => n * 10 + (c.toNat - 0x30)) 0

def digitsUpTo (most : Nat) (cs : List Char) : List Char × List Char :=
  let ds := (cs.take most).takeWhile Char.isDigit
  (ds, cs.drop ds.length)

def twoDigits? (cs : List Char) : Option (Nat × List Char) :=
  let (ds, rest) := digitsUpTo 2 cs
  if ds.length = 2 then some (digitsValue ds, rest) else none

def oneOrTwoDigits? (cs : List Char) : Option (Nat × List Char) :=
  let (ds, rest) := digitsUpTo 2 cs
  if ds.isEmpty then none else some (digitsValue ds, rest)

def offset? (cs : List Char) : Option (Option Int) := do
  let signed (sign : Int) (cs : List Char) : Option (Option Int) := do
    let (hours, rest) ← oneOrTwoDigits? cs
    match rest with
    | [] => return some (sign * (hours * 60))
    | ':' :: rest =>
      let (minutes, rest) ← twoDigits? rest
      if rest.isEmpty then return some (sign * (hours * 60 + minutes)) else none
    | _ => none
  match cs, cs.dropWhile (· == ' ') with
  | [], _ => return none
  | _, ['Z'] => return some 0
  | _, '+' :: cs => signed 1 cs
  | _, '-' :: cs => signed (-1) cs
  | _, _ => none

/-- A time of day. Of the digits after the second's point six count. -/
def time? (cs : List Char) : Option Time := do
  let (hour, rest) ← oneOrTwoDigits? cs
  let ':' :: rest := rest | none
  let (minute, rest) ← twoDigits? rest
  let ':' :: rest := rest | none
  let (second, rest) ← twoDigits? rest
  let (fraction, rest) :=
    match rest with
    | '.' :: rest => (rest.takeWhile Char.isDigit, rest.dropWhile Char.isDigit)
    | rest => ([], rest)
  let offset ← offset? rest
  let micros := digitsValue ((fraction ++ List.replicate 6 '0').take 6)
  return { hour, minute, second, micros, offset }

/-- Reads a date or a moment. A date alone has two digits for month and day. -/
def timestamp? (cs : List Char) : Option Timestamp := do
  let (year, rest) := digitsUpTo 4 cs
  if year.length ≠ 4 then none
  let '-' :: rest := rest | none
  let (month, rest) ← oneOrTwoDigits? rest
  let '-' :: rest := rest | none
  let (day, rest) ← oneOrTwoDigits? rest
  let date : Date := ⟨digitsValue year, month, day⟩
  match rest with
  | [] => if cs.length = 10 then return ⟨date, none⟩ else none
  | 'T' :: rest | 't' :: rest => return ⟨date, ← time? rest⟩
  | ' ' :: rest => return ⟨date, ← time? (rest.dropWhile (· == ' '))⟩
  | _ => none

def zeroPadded (width n : Nat) : String :=
  let ds := Nat.toDigits 10 n
  String.ofList (List.replicate (width - ds.length) '0' ++ ds)

def Date.text (d : Date) : String :=
  zeroPadded 4 d.year ++ "-" ++ zeroPadded 2 d.month ++ "-" ++ zeroPadded 2 d.day

def offsetText (n : Int) : String :=
  (if n < 0 then "-" else "+") ++ zeroPadded 2 (n.natAbs / 60) ++ ":" ++
    zeroPadded 2 (n.natAbs % 60)

def Time.text (t : Time) : String :=
  zeroPadded 2 t.hour ++ ":" ++ zeroPadded 2 t.minute ++ ":" ++ zeroPadded 2 t.second ++
    (if t.micros = 0 then "" else "." ++ zeroPadded 6 t.micros) ++
    (t.offset.map offsetText).getD ""

def Timestamp.text (t : Timestamp) : String :=
  match t.time with
  | some time => t.date.text ++ " " ++ time.text
  | none => t.date.text

/-- How a date stands inside a list or a mapping: by its parts. Seconds and their fraction are left
out when they are zero. -/
def Timestamp.nested (t : Timestamp) : String :=
  let date := [t.date.year, t.date.month, t.date.day]
  let parts (ns : List Nat) : List String := ns.map toString
  match t.time with
  | none => "datetime.date(" ++ ", ".intercalate (parts date) ++ ")"
  | some time =>
    let small :=
      if time.micros ≠ 0 then [time.second, time.micros]
      else if time.second ≠ 0 then [time.second]
      else []
    let zone :=
      match time.offset with
      | none => []
      | some 0 => ["tzinfo=datetime.timezone.utc"]
      | some n => ["tzinfo=datetime.timezone(" ++ (Duration.ofMinutes n).text ++ ")"]
    "datetime.datetime(" ++
      ", ".intercalate (parts (date ++ [time.hour, time.minute] ++ small) ++ zone) ++ ")"

end SigmaDesk.Yaml
