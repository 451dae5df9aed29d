import Mathlib.Algebra.Group.Int.Defs
import Mathlib.Algebra.Group.Nat.Defs
import Mathlib.Logic.Basic

/-!
# JSON values of serde_json

`Value` is `serde_json::Value`. A number is an integer of 64 bits, or a double given by its bits. An
object has one entry for a key; as a list it is read by its first entry for the key, and it is
walked in the order of the list.
-/

namespace Discovery

inductive Number where
  | posInt (n : Fin (2 ^ 64))
  | negInt (n : { n : Int // -2 ^ 63 ≤ n ∧ n < 0 })
  | float (bits : BitVec 64)
deriving DecidableEq

inductive Value where
  | null
  | bool (b : Bool)
  | number (n : Number)
  | string (s : String)
  | array (xs : List Value)
  | object (m : List (String × Value))

abbrev Map := List (String × Value)

/-- `Number::as_i64`. -/
def Number.asI64 : Number → Option Int
  | posInt n => if n.1 < 2 ^ 63 then some n.1 else none
  | negInt n => some n.1
  | float _ => none

namespace Value

def asStr : Value → Option String
  | string s => some s
  | _ => none

def asArray : Value → Option (List Value)
  | array xs => some xs
  | _ => none

def asObject : Value → Option Map
  | object m => some m
  | _ => none

end Value

namespace Map

def get? : Map → String → Option Value
  | [], _ => none
  | (l, v) :: m, k => if l = k then some v else get? m k

/-- `get(k).and_then(|v| v.as_str())`. -/
def str? (m : Map) (k : String) : Option String := (get? m k).bind Value.asStr

@[simp] theorem get?_nil (k : String) : get? [] k = none := rfl

@[simp] theorem get?_cons (l : String) (v : Value) (m : Map) (k : String) :
    get? ((l, v) :: m) k = if l = k then some v else get? m k := rfl

end Map

/-- `Value::get`: the entry of an object; `none` for any other value. -/
def Value.get? (v : Value) (k : String) : Option Value := v.asObject.bind fun m => Map.get? m k

end Discovery
