import SigmaDesk.External

/-!
# Faults of YAML documents

A document is malformed, or it holds a scalar that looks like a number, a date or a character and
has no value.
-/

namespace SigmaDesk.Yaml

/-- An amount of time by days and by seconds below a day, as messages give it. -/
structure Duration where
  days : Int
  seconds : Nat
deriving DecidableEq, Repr

def Duration.ofMinutes (n : Int) : Duration := ⟨n.fdiv 1440, (n.fmod 1440 * 60).toNat⟩

def Duration.text (d : Duration) : String :=
  let days := if d.days = 0 then [] else ["days=" ++ toString d.days]
  let seconds := if d.seconds = 0 then [] else ["seconds=" ++ toString d.seconds]
  "datetime.timedelta(" ++
    (if d.days = 0 ∧ d.seconds = 0 then "0" else ", ".intercalate (days ++ seconds)) ++ ")"

inductive Fault
  | malformed
  | noCharacter
  | wideCharacter
  | noDigits (base : Nat)
  | tooManyDigits (count : Nat)
  | tooManyPlaces
  | year (n : Nat)
  | month
  | day
  | hour
  | minute
  | second
  | offset (d : Duration)
deriving DecidableEq, Repr

def maxDigits : Nat := 4300

def Fault.message : Fault → String
  | .malformed => "malformed YAML"
  | .noCharacter => "chr() arg not in range(0x110000)"
  | .wideCharacter => "Python int too large to convert to C int"
  | .noDigits base => "invalid literal for int() with base " ++ toString base ++ ": ''"
  | .tooManyDigits count =>
    "Exceeds the limit (" ++ toString maxDigits ++
      " digits) for integer string conversion: value has " ++ toString count ++
      " digits; use sys.set_int_max_str_digits() to increase the limit"
  | .tooManyPlaces => "int too large to convert to float"
  | .year n => "year " ++ toString n ++ " is out of range"
  | .month => "month must be in 1..12"
  | .day => "day is out of range for month"
  | .hour => "hour must be in 0..23"
  | .minute => "minute must be in 0..59"
  | .second => "second must be in 0..59"
  | .offset d =>
    "offset must be a timedelta strictly between -timedelta(hours=24) and " ++
      "timedelta(hours=24), not " ++ d.text ++ "."

def Fault.breakdown (f : Fault) : Breakdown where
  kind :=
    match f with
    | .malformed => .malformed
    | .wideCharacter | .tooManyPlaces => .tooLarge
    | _ => .wrongValue
  message := f.message

end SigmaDesk.Yaml
