/-
TOML — dates and times.

A date and time, a date or a time; only the first may say how far it is from
universal time.  Seconds may be left out.  The canonical text has a capital T
between date and time, seconds always, and a fraction of up to nine places
without trailing zeros.
-/
namespace Bracework.Toml

/-- A day of the calendar. -/
structure Date where
  year : Nat
  month : Nat
  day : Nat
deriving DecidableEq, Repr

/-- A time of day. -/
structure Time where
  hour : Nat
  minute : Nat
  second : Nat
  nanosecond : Nat
deriving DecidableEq, Repr

/-- The distance from universal time. -/
inductive Zone where
  | universal
  | offset (negative : Bool) (minutes : Nat)
deriving DecidableEq, Repr

/-- A point in time, or a part of one. -/
inductive DateTime where
  | date (date : Date)
  | time (time : Time)
  | both (date : Date) (time : Time) (zone? : Option Zone)
deriving DecidableEq, Repr

/-! ## The calendar -/

def isLeapYear (year : Nat) : Bool := year % 4 == 0 && (year % 100 != 0 || year % 400 == 0)

def daysInMonth (year month : Nat) : Nat :=
  if month == 2 then (if isLeapYear year then 29 else 28)
  else if [4, 6, 9, 11].contains month then 30
  else 31

def Date.isValid (d : Date) : Bool :=
  1 ≤ d.month && d.month ≤ 12 && 1 ≤ d.day && d.day ≤ daysInMonth d.year d.month

/-- A minute may have one second more than usual. -/
def Time.isValid (t : Time) : Bool := t.hour ≤ 23 && t.minute ≤ 59 && t.second ≤ 60

/-! ## Reading -/

/-- The number that a group of digits denotes. -/
def number? (digits : List Char) : Option Nat :=
  if digits.all Char.isDigit then some (Nat.ofDigitChars 10 digits 0) else none

def Date.read? : List Char → Option (Date × List Char)
  | y₁ :: y₂ :: y₃ :: y₄ :: '-' :: m₁ :: m₂ :: '-' :: d₁ :: d₂ :: rest => do
      let date : Date := ⟨← number? [y₁, y₂, y₃, y₄], ← number? [m₁, m₂], ← number? [d₁, d₂]⟩
      if date.isValid then some (date, rest) else none
  | _ => none

/-- The nanoseconds that the digits of a fraction stand for; places after the ninth do
not count. -/
def nanoseconds (digits : List Char) : Nat :=
  Nat.ofDigitChars 10 ((digits ++ List.replicate 9 '0').take 9) 0

/-- A fraction of a second, if a point stands here. -/
def fraction? : List Char → Option (Nat × List Char)
  | '.' :: cs =>
      let digits := cs.takeWhile Char.isDigit
      if digits.isEmpty then none else some (nanoseconds digits, cs.dropWhile Char.isDigit)
  | cs => some (0, cs)

/-- The seconds of a time, if a colon stands here. -/
def seconds? : List Char → Option (Nat × Nat × List Char)
  | ':' :: s₁ :: s₂ :: cs => do
      let second ← number? [s₁, s₂]
      let (nanosecond, rest) ← fraction? cs
      return (second, nanosecond, rest)
  | ':' :: _ => none
  | cs => some (0, 0, cs)

def Time.read? : List Char → Option (Time × List Char)
  | h₁ :: h₂ :: ':' :: m₁ :: m₂ :: cs => do
      let hour ← number? [h₁, h₂]
      let minute ← number? [m₁, m₂]
      let (second, nanosecond, rest) ← seconds? cs
      let time : Time := ⟨hour, minute, second, nanosecond⟩
      if time.isValid then some (time, rest) else none
  | _ => none

/-- The zone that is all of a text; no text is no zone. -/
def zone? : List Char → Option (Option Zone)
  | [] => some none
  | ['Z'] => some (some .universal)
  | ['z'] => some (some .universal)
  | [sign, h₁, h₂, ':', m₁, m₂] => do
      let hours ← number? [h₁, h₂]
      let minutes ← number? [m₁, m₂]
      if (sign == '+' || sign == '-') && hours ≤ 23 && minutes ≤ 59 then
        some (some (.offset (sign == '-') (hours * 60 + minutes)))
      else none
  | _ => none

/-- The marks between date and time. -/
def isDateTimeMark (c : Char) : Bool := c == 'T' || c == 't' || c == ' '

namespace DateTime

/-- The point in time that is all of a text. -/
def read? (cs : List Char) : Option DateTime :=
  match Date.read? cs with
  | some (d, []) => some (.date d)
  | some (d, mark :: rest) => do
      let (t, rest) ← if isDateTimeMark mark then Time.read? rest else none
      return .both d t (← zone? rest)
  | none => match Time.read? cs with
    | some (t, []) => some (.time t)
    | _ => none

/-! ## Writing -/

/-- A number in a fixed number of digits. -/
def padded (width n : Nat) : List Char :=
  let digits := Nat.toDigits 10 n
  List.replicate (width - digits.length) '0' ++ digits

/-- A list without the given trailing item. -/
def dropTrailing (item : Char) (cs : List Char) : List Char :=
  (cs.reverse.dropWhile (· == item)).reverse

def dateText (d : Date) : List Char :=
  padded 4 d.year ++ '-' :: padded 2 d.month ++ '-' :: padded 2 d.day

def timeText (t : Time) : List Char :=
  padded 2 t.hour ++ ':' :: padded 2 t.minute ++ ':' :: padded 2 t.second ++
    if t.nanosecond = 0 then [] else '.' :: dropTrailing '0' (padded 9 t.nanosecond)

/-- No distance at all is written with a plus. -/
def zoneText : Zone → List Char
  | .universal => ['Z']
  | .offset negative minutes =>
      (if negative && minutes != 0 then '-' else '+') ::
        padded 2 (minutes / 60) ++ ':' :: padded 2 (minutes % 60)

/-- The canonical text. -/
def chars : DateTime → List Char
  | .date d => dateText d
  | .time t => timeText t
  | .both d t zone? => dateText d ++ 'T' :: timeText t ++ ((zone?.map zoneText).getD [])

def print (d : DateTime) : String := String.ofList d.chars

end DateTime

end Bracework.Toml
