import OperatorRecovery.Json

/-!
Reading records and names from JSON. A record is an object, or an array of its
fields in order; fields that nobody asks for are ignored, and a wanted field
must not be repeated. A reader is given the number of arrays and objects that
it may still open, and `Json.depth` is always enough.
-/

namespace OperatorRecovery.Json

/-- The fields of that name, in order. -/
def fieldsNamed (name : String) (fields : List (String × Json)) : List Json :=
  (fields.filter (·.1 == name)).map (·.2)

/-- The one field of that name, or the absence of one; nothing if it is repeated. -/
def field? (fields : List (String × Json)) (name : String) : Option (Option Json) :=
  match fieldsNamed name fields with
  | [] => some none
  | [j] => some (some j)
  | _ => none

/-- The fields of a record in the order of their names. -/
def record? (names : List String) : Json → Option (List (Option Json))
  | .object fields => names.mapM (field? fields)
  | .array items =>
    if items.length ≤ names.length then
      some (items.map some ++ List.replicate (names.length - items.length) none)
    else none
  | _ => none

/-- Where a value comes from: a text, or a value in memory. -/
inductive Source
  | text
  | memory
  deriving DecidableEq, Repr

/-- The fields of a variant. Only a text may list them in order without names. -/
def variant? (source : Source) (names : List String) (j : Json) : Option (List (Option Json)) :=
  match source, j with
  | .memory, .array _ => none
  | _, j => record? names j

/-- A field that may be absent. -/
def orElse (default : α) (read : Json → Option α) : Option Json → Option α
  | none => some default
  | some j => read j

/-- A value that may be null. -/
def orNull (read : Json → Option α) : Json → Option (Option α)
  | .null => some none
  | j => (read j).map some

def items? (read : Nat → Json → Option α) : Nat → Json → Option (List α)
  | room + 1, .array items => items.mapM (read room)
  | _, _ => none

def string? : Json → Option String
  | .string s => some s
  | _ => none

def bool? : Json → Option Bool
  | .bool b => some b
  | _ => none

/-- A single name: a string, or an object with that field holding null. -/
def name? : Nat → Json → Option String
  | _, .string s => some s
  | _ + 1, .object [(s, .null)] => some s
  | _, _ => none

def uint32? : Json → Option UInt32
  | .int n => if 0 ≤ n ∧ n < 0x100000000 then some (UInt32.ofNat n.toNat) else none
  | _ => none

def int64? : Json → Option Int64
  | .int n =>
    if -0x8000000000000000 ≤ n ∧ n < 0x8000000000000000 then some (Int64.ofInt n) else none
  | _ => none

/-- The double nearest an integer, as 64 bits hold it. -/
def floatOfInt (n : Int) : Float :=
  if 0 ≤ n then n.toNat.toUInt64.toFloat else -(-n).toNat.toUInt64.toFloat

def float? : Json → Option Float
  | .float x => some x
  | .int n => some (floatOfInt n)
  | _ => none

def char? : Json → Option Char
  | .string s => match s.toList with
    | [c] => some c
    | _ => none
  | _ => none

/-- A field that is written only if it holds something. -/
def unlessEmpty (name : String) (items : List Json) : List (String × Json) :=
  if items.isEmpty then [] else [(name, .array items)]

theorem variant?_object (source : Source) (names : List String) (fields : List (String × Json)) :
    variant? source names (.object fields) = names.mapM (field? fields) := by
  cases source <;> rfl

theorem uint32?_ofNat (n : UInt32) : uint32? (.int n.toNat) = some n := by
  have h := n.toNat_lt
  simp [uint32?]
  omega

theorem int64?_ofInt (n : Int64) : int64? (.int n.toInt) = some n := by
  have hlow := n.le_toInt
  have hhigh := n.toInt_lt
  simp [int64?]
  omega

end OperatorRecovery.Json
