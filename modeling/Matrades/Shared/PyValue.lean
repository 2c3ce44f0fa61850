import Matrades.Research.Models

/-!
# Values and exceptions of Python

What `response.json()` gives: a number is an `int` of any size or a `float`, and a dictionary has each key
once. `getItem` is `value[key]`, `get` is `value.get(key)`.
-/

namespace Matrades

inductive PyValue
  | none
  | bool (b : Bool)
  | int (n : ℤ)
  | float (x : PyFloat)
  | str (s : String)
  | list (items : List PyValue)
  | dict (fields : List (String × PyValue))

/-- The exceptions that handlers tell apart. `httpError` stands for `httpx.HTTPError`. -/
inductive PyError
  | keyError
  | typeError
  | valueError
  | attributeError
  | overflowError
  | httpError
  | runtimeError (message : String)
  | other (name : String)
  deriving DecidableEq, Repr

namespace PyValue

/-- `value[key]` -/
def getItem (key : String) : PyValue → Except PyError PyValue
  | dict fields =>
    match fields.lookup key with
    | some value => .ok value
    | .none => .error .keyError
  | _ => .error .typeError

/-- `value.get(key)`, `None` where the key is missing. -/
def get (key : String) : PyValue → Except PyError PyValue
  | dict fields => .ok ((fields.lookup key).getD none)
  | _ => .error .attributeError

/-- `bool(value)` -/
def truthy : PyValue → Bool
  | none => false
  | bool b => b
  | int n => n ≠ 0
  | float x => x ≠ .finite 0
  | str s => s ≠ ""
  | list items => !items.isEmpty
  | dict fields => !fields.isEmpty

end PyValue

end Matrades
