import Mathlib.Data.Rat.Floor

/-!
# Values of a measurement

A measurement is a dict of Python values.  A float is a rational number, an
infinity or not a number; arithmetic on the rational ones is exact.
-/

namespace Hyperloom
namespace Common

/-!
## Floats
-/

inductive PyFloat where
  | finite (q : Rat)
  | inf
  | negInf
  | nan
deriving DecidableEq

namespace PyFloat

/-- `x < y`; a comparison with `nan` is false. -/
def lt : PyFloat -> PyFloat -> Bool
  | finite p, finite q => decide (p < q)
  | finite _, inf => true
  | negInf, finite _ => true
  | negInf, inf => true
  | _, _ => false

def le : PyFloat -> PyFloat -> Bool
  | finite p, finite q => decide (p ≤ q)
  | nan, _ => false
  | _, nan => false
  | _, inf => true
  | negInf, _ => true
  | _, _ => false

def isPos (x : PyFloat) : Bool := lt (finite 0) x

def add (x : PyFloat) (q : Rat) : PyFloat :=
  match x with
  | finite p => finite (p + q)
  | other => other

/-- `q * x` for a positive `q`. -/
def scale (q : Rat) (x : PyFloat) : PyFloat :=
  match x with
  | finite p => finite (q * p)
  | other => other

def subFrom (q : Rat) (x : PyFloat) : PyFloat :=
  match x with
  | finite p => finite (q - p)
  | inf => negInf
  | negInf => inf
  | nan => nan

theorem lt_finite_of_le_eq_false {p q : Rat} (h : le (finite p) (finite q) = false) : q < p := by
  simpa [le] using h

end PyFloat

/-!
## Values and dicts
-/

inductive Value where
  | none
  | bool (b : Bool)
  | int (n : Int)
  | float (x : PyFloat)
  | str (s : String)
  | list (items : List Value)
  | dict (fields : List (String × Value))

/-- A dict with text keys, the last write first. -/
abbrev Record := List (String × Value)

namespace Record

def read (r : Record) (key : String) : Value :=
  match r with
  | [] => .none
  | (k, v) :: rest => if k = key then v else read rest key

variable (r : Record)

def has (key : String) : Bool := r.any (fun field => field.fst = key)

/-- `r.items()`: each key once, with the value written last. -/
def items : Record -> Record
  | [] => []
  | (k, v) :: rest => (k, v) :: (items rest).filter (fun field => field.fst ≠ k)

/-- `{**r, key: value}`. -/
def write (key : String) (value : Value) : Record := (key, value) :: r

/-- `r[key] = text` for a text that is not empty. -/
def writeText (key text : String) : Record :=
  if text ≠ "" then r.write key (.str text) else r

/-- `{**r, **s}`. -/
def update (r s : Record) : Record := s ++ r

theorem read_cons (key other : String) (value : Value) (r : Record) :
    read ((key, value) :: r) other = if key = other then value else read r other :=
  rfl

theorem read_write (key other : String) (value : Value) :
    read (write r key value) other = if key = other then value else read r other :=
  rfl

theorem read_writeText_of_ne {key other : String} (h : key ≠ other)
    (r : Record) (text : String) : read (writeText r key text) other = read r other := by
  unfold writeText
  split
  · rw [read_write, if_neg h]
  · rfl

theorem read_update_of_absent {r s : Record} {key : String}
    (h : forall field, field ∈ s -> field.fst ≠ key) : read (update r s) key = read r key := by
  induction s with
  | nil => rfl
  | cons field rest ih =>
    rcases field with ⟨k, v⟩
    show read ((k, v) :: update r rest) key = read r key
    rw [read_cons, if_neg (h (k, v) List.mem_cons_self)]
    exact ih (fun other hother => h other (List.mem_cons_of_mem _ hother))

end Record

namespace Value

def truthy : Value -> Bool
  | none => false
  | bool b => b
  | int n => decide (n ≠ 0)
  | float x => decide (x ≠ .finite 0)
  | str s => decide (s ≠ "")
  | list items => !items.isEmpty
  | dict fields => !fields.isEmpty

/-- The number of an `int` or `float` that is not a `bool`. -/
def number? : Value -> Option PyFloat
  | int n => some (.finite n)
  | float x => some x
  | _ => Option.none

/-- The number of an `int` or `float`, where `True` counts as one. -/
def numberOrBool? : Value -> Option PyFloat
  | bool b => some (.finite (if b then 1 else 0))
  | value => value.number?

/-- `isinstance(value, str) and value == text`. -/
def isText (text : String) : Value -> Bool
  | str s => decide (s = text)
  | _ => false

def isTrue : Value -> Bool
  | bool b => b
  | _ => false

def isFalse : Value -> Bool
  | bool b => !b
  | _ => false

end Value

/-- What Python makes of a text and of values that are not texts: the float a
text spells, the text of a value, and whether two values are equal. -/
structure Python where
  floatOf : String -> Option PyFloat
  textOf : Value -> String
  equal : Value -> Value -> Bool

variable (py : Python)

def Python.str : Value -> String
  | .str s => s
  | .none => "None"
  | value => py.textOf value

def toFloat : Value -> Option Rat
  | .int n => some n
  | .float (.finite q) => some q
  | .str s =>
    match py.floatOf s with
    | some (.finite q) => some q
    | _ => none
  | _ => none

def optionalPositiveFloat (value : Value) : Option Rat :=
  match toFloat py value with
  | some q => if q ≤ 0 then none else some q
  | none => none

end Common
end Hyperloom
