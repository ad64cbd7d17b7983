/-!
JSON values. Integers and floating-point numbers are told apart, fields keep
their order, and a field may occur twice. A text can be well formed in a place
that has no value, such as a number too large for a double; `unreadable` stands
there, and only a field that nobody asks for may hold it.
-/

namespace OperatorRecovery

inductive Json
  | null
  | bool (value : Bool)
  | int (value : Int)
  | float (value : Float)
  | string (value : String)
  | array (items : List Json)
  | object (fields : List (String × Json))
  | unreadable
  deriving Inhabited

namespace Json

mutual

/-- How deeply arrays and objects are nested. -/
def depth : Json → Nat
  | .array items => depthOfItems items + 1
  | .object fields => depthOfFields fields + 1
  | _ => 0

def depthOfItems : List Json → Nat
  | [] => 0
  | j :: rest => max (depth j) (depthOfItems rest)

def depthOfFields : List (String × Json) → Nat
  | [] => 0
  | (_, j) :: rest => max (depth j) (depthOfFields rest)

end

def strings (items : List String) : Json := .array (items.map .string)

def nat (n : Nat) : Json := .int n

end Json

end OperatorRecovery
