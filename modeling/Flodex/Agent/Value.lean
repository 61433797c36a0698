import Mathlib.Data.Int.Notation
import Mathlib.Data.Nat.Notation

/-!
# JSON values

Parsed JSON as the programs hold it: numbers in the three forms the parser distinguishes, and
objects as fields with their keys in increasing order.
-/

namespace Flodex

/-- A JSON number: a non-negative integer, a negative integer, or the bits of a float. -/
inductive Number
  | posInt (n : ℕ)
  | negInt (i : ℤ)
  | float (bits : UInt64)
  deriving DecidableEq, Repr

/-- A JSON value. -/
inductive Value
  | null
  | bool (b : Bool)
  | number (n : Number)
  | string (s : String)
  | array (items : List Value)
  | object (fields : List (String × Value))
  deriving Repr, Inhabited

namespace Value

/-- The field of an object. -/
def get (key : String) : Value → Option Value
  | .object fields => (fields.find? fun f => f.1 = key).map Prod.snd
  | _ => none

/-- The text of a string. -/
def asStr : Value → Option String
  | .string s => some s
  | _ => none

/-- The items of an array. -/
def asArray : Value → Option (List Value)
  | .array items => some items
  | _ => none

/-- The value of a non-negative integer. -/
def asU64 : Value → Option ℕ
  | .number (.posInt n) => some n
  | _ => none

/-- Put a field where the order of the keys has it, in place of one with the same key. -/
def insertField (key : String) (v : Value) : List (String × Value) → List (String × Value)
  | [] => [(key, v)]
  | f :: fields =>
    if key < f.1 then (key, v) :: f :: fields
    else if key = f.1 then (key, v) :: fields
    else f :: insertField key v fields

/-- The object with the field set. -/
def set (w : Value) (key : String) (v : Value) : Value :=
  match w with
  | .object fields => .object (insertField key v fields)
  | w => w

/-- The text field of an object. -/
def getStr (key : String) (v : Value) : Option String := (v.get key).bind asStr

/-- The array field of an object. -/
def getArray (key : String) (v : Value) : Option (List Value) := (v.get key).bind asArray

end Value

end Flodex
