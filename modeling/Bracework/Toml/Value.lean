/-
TOML — values.

A number keeps what is written; whether it fits a type of numbers, or is a number
at all, is for the reader of the value to ask.  The entries of a table are sorted
by key.
-/
import Bracework.Json.Basic

namespace Bracework.Toml

/-- A TOML value.  A date or time is kept as its canonical text; an integer may be
written with something among its digits that makes it no number. -/
inductive Value where
  | string (text : String)
  | integer (value? : Option Int)
  | decimal (negative : Bool) (value : Decimal)
  | infinite (negative : Bool)
  | nan
  | boolean (value : Bool)
  | dateTime (text : String)
  | array (items : List Value)
  | table (entries : List (String × Value))
deriving Inhabited, Repr

namespace Value

/-- The key under which a date or time stands where a table is expected. -/
def dateTimeKey : String := "$__toml_private_datetime"

/-- The entries of a value that reads as a table. -/
def entries? : Value → Option (List (String × Value))
  | .table entries => some entries
  | .dateTime text => some [(dateTimeKey, .string text)]
  | _ => none

def text? : Value → Option String
  | .string text => some text
  | _ => none

def boolean? : Value → Option Bool
  | .boolean value => some value
  | _ => none

def items? : Value → Option (List Value)
  | .array items => some items
  | _ => none

/-! ## Numbers that fit -/

/-- Integers of up to 128 bits with or without a sign. -/
def fitsWide (n : Int) : Bool := -(Int.pow 2 127) ≤ n && n < Int.pow 2 128

/-- Integers of up to 64 bits with or without a sign. -/
def fitsWord (n : Int) : Bool := -(Int.pow 2 63) ≤ n && n < Int.pow 2 64

mutual
/-- Whether all numbers in a value are numbers and can be held: wide integers and
finite decimals. -/
def isHeld : Value → Bool
  | .integer value? => value?.any fitsWide
  | .decimal negative d => (d.toBinary64 negative).isFinite
  | .array items => allHeld items
  | .table entries => allEntriesHeld entries
  | _ => true
termination_by structural v => v

def allHeld : List Value → Bool
  | [] => true
  | v :: vs => isHeld v && allHeld vs
termination_by structural vs => vs

def allEntriesHeld : List (String × Value) → Bool
  | [] => true
  | (_, v) :: rest => isHeld v && allEntriesHeld rest
termination_by structural rest => rest
end

/-! ## JSON -/

mutual
/-- A value as JSON; nothing if a number in it does not fit. -/
def toJson? : Value → Option Json
  | .string text => some (.string text)
  | .integer value? => (value?.filter fitsWord).map .whole
  | .decimal negative d =>
      let x := d.toBinary64 negative
      if x.isFinite then some (.ofBinary64 x) else none
  | .infinite _ => some .null
  | .nan => some .null
  | .boolean value => some (.bool value)
  | .dateTime text => some (.object [(dateTimeKey, .string text)])
  | .array items => (itemsJson? items).map .array
  | .table entries => (entriesJson? entries).map .object
termination_by structural v => v

def itemsJson? : List Value → Option (List Json)
  | [] => some []
  | v :: vs => return (← toJson? v) :: (← itemsJson? vs)
termination_by structural vs => vs

def entriesJson? : List (String × Value) → Option (List (String × Json))
  | [] => some []
  | (key, v) :: rest => return (key, ← toJson? v) :: (← entriesJson? rest)
termination_by structural rest => rest
end

end Value

end Bracework.Toml
