/-
Values of a TOML document.

A table keeps its keys in the order in which the document first names them.
-/
import Orthography.Decimal.Binary64

set_option autoImplicit false

namespace Orthography.Toml

/-! ## Dates and times -/

structure Date where
  /-- The year, from 1 to 9999. -/
  year : Nat
  month : Nat
  day : Nat
  deriving DecidableEq, Repr

structure Time where
  hour : Nat
  minute : Nat
  second : Nat
  micro : Nat
  deriving DecidableEq, Repr

def isLeap (year : Nat) : Bool := year % 4 = 0 && (year % 100 != 0 || year % 400 = 0)

def daysIn (year month : Nat) : Nat :=
  if month = 2 then (if isLeap year then 29 else 28)
  else if month = 4 || month = 6 || month = 9 || month = 11 then 30
  else 31

def Date.exists (d : Date) : Bool :=
  1 ≤ d.year && 1 ≤ d.month && d.month ≤ 12 && 1 ≤ d.day && d.day ≤ daysIn d.year d.month

/-- The day as `YYYY-MM-DD`. -/
def Date.render (d : Date) : Text :=
  Decimal.padded 4 d.year ++ '-' :: Decimal.padded 2 d.month ++ '-' :: Decimal.padded 2 d.day

/-- The time as `HH:MM:SS`, with six more digits if there are millionths. -/
def Time.render (t : Time) : Text :=
  Decimal.padded 2 t.hour ++ ':' :: Decimal.padded 2 t.minute ++ ':' :: Decimal.padded 2 t.second ++
    if t.micro = 0 then [] else '.' :: Decimal.padded 6 t.micro

/-- The distance of a clock from universal time, given in minutes, as `+HH:MM`. -/
def renderOffset (minutes : Int) : Text :=
  (if minutes < 0 then '-' else '+') ::
    (Decimal.padded 2 (minutes.natAbs / 60) ++ ':' :: Decimal.padded 2 (minutes.natAbs % 60))

/-! ## Values -/

inductive Value where
  | text (t : Text)
  | integer (n : Int)
  /-- A number with a point or an exponent. -/
  | float (x : Decimal.Binary64)
  | boolean (b : Bool)
  /-- Nothing. No document holds it, but settings given otherwise may. -/
  | nothing
  | date (d : Date)
  | time (t : Time)
  /-- A point in time, with the minutes by which its clock is ahead of universal time. -/
  | dateTime (d : Date) (t : Time) (offset : Option Int)
  | array (items : List Value)
  | table (fields : List (Text × Value))
  deriving Repr

abbrev Table := List (Text × Value)

namespace Table

def get? (t : Table) (key : Text) : Option Value := t.lookup key

/-- The table with a new value for a key. A key that is there keeps its place. -/
def set (t : Table) (key : Text) (value : Value) : Table :=
  match t with
  | [] => [(key, value)]
  | (other, old) :: rest =>
    if other = key then (other, value) :: rest else (other, old) :: Table.set rest key value

end Table

/-- A point in time as `YYYY-MM-DDTHH:MM:SS`, with its offset if it has one. -/
def renderDateTime (d : Date) (t : Time) (offset : Option Int) : Text :=
  d.render ++ 'T' :: t.render ++ (offset.map renderOffset).getD []

def Value.typeName : Value → String
  | .text _ => "str"
  | .integer _ => "int"
  | .float _ => "float"
  | .boolean _ => "bool"
  | .nothing => "NoneType"
  | .date _ => "date"
  | .time _ => "time"
  | .dateTime .. => "datetime"
  | .array _ => "list"
  | .table _ => "dict"

/-- The name of a value's type with the module that the types of dates and times are in. -/
def Value.fullTypeName (v : Value) : String :=
  match v with
  | .date _ | .time _ | .dateTime .. => "datetime." ++ v.typeName
  | _ => v.typeName

end Orthography.Toml
