/-!
Resolved types: what a symbol or an expression denotes, as opposed to the syntax
that spells a type in source code. The built-in types live in the namespace
`System` and have a keyword each.
-/

namespace OperatorRecovery

inductive BuiltinType
  | void
  | object
  | boolean
  | char
  | sbyte
  | byte
  | int16
  | uint16
  | int32
  | uint32
  | int64
  | uint64
  | single
  | double
  | decimal
  | string
  deriving DecidableEq, Repr

namespace BuiltinType

def all : List BuiltinType :=
  [.void, .object, .boolean, .char, .sbyte, .byte, .int16, .uint16, .int32, .uint32,
   .int64, .uint64, .single, .double, .decimal, .string]

/-- The name inside the namespace `System`. -/
def name : BuiltinType → String
  | .void => "Void"
  | .object => "Object"
  | .boolean => "Boolean"
  | .char => "Char"
  | .sbyte => "SByte"
  | .byte => "Byte"
  | .int16 => "Int16"
  | .uint16 => "UInt16"
  | .int32 => "Int32"
  | .uint32 => "UInt32"
  | .int64 => "Int64"
  | .uint64 => "UInt64"
  | .single => "Single"
  | .double => "Double"
  | .decimal => "Decimal"
  | .string => "String"

def keyword : BuiltinType → String
  | .void => "void"
  | .object => "object"
  | .boolean => "bool"
  | .char => "char"
  | .sbyte => "sbyte"
  | .byte => "byte"
  | .int16 => "short"
  | .uint16 => "ushort"
  | .int32 => "int"
  | .uint32 => "uint"
  | .int64 => "long"
  | .uint64 => "ulong"
  | .single => "float"
  | .double => "double"
  | .decimal => "decimal"
  | .string => "string"

def fullName (b : BuiltinType) : String := "System." ++ b.name

def ofName? (name : String) : Option BuiltinType := all.find? (·.name == name)

theorem mem_all (b : BuiltinType) : b ∈ all := by cases b <;> decide

theorem ofName?_name (b : BuiltinType) : ofName? b.name = some b := by cases b <;> rfl

end BuiltinType

structure TypeParameter where
  name : String
  /-- The parameter has a `new()` constraint or stands for a value type. -/
  hasDefaultConstructor : Bool
  deriving DecidableEq, Repr

inductive ResolvedType
  | named («namespace» name : String) (arguments : List ResolvedType)
  | array (element : ResolvedType) (rank : UInt32)
  | byRef (referent : ResolvedType)
  | parameter (parameter : TypeParameter)
  | unknown
  deriving Inhabited

namespace ResolvedType

mutual

/-- Two types are equal when they are built alike from equal components. -/
def decideEq : (s t : ResolvedType) → Decidable (s = t)
  | .named ns name arguments, t => match t with
    | .named ns' name' arguments' =>
      match decideListEq arguments arguments' with
      | isTrue h => decidable_of_iff (ns = ns' ∧ name = name') (by simp [h])
      | isFalse h => isFalse (by simp [h])
    | .array .. | .byRef .. | .parameter .. | .unknown => isFalse nofun
  | .array element rank, t => match t with
    | .array element' rank' =>
      match decideEq element element' with
      | isTrue h => decidable_of_iff (rank = rank') (by simp [h])
      | isFalse h => isFalse (by simp [h])
    | .named .. | .byRef .. | .parameter .. | .unknown => isFalse nofun
  | .byRef referent, t => match t with
    | .byRef referent' =>
      match decideEq referent referent' with
      | isTrue h => isTrue (by simp [h])
      | isFalse h => isFalse (by simp [h])
    | .named .. | .array .. | .parameter .. | .unknown => isFalse nofun
  | .parameter p, t => match t with
    | .parameter q => decidable_of_iff (p = q) (by simp)
    | .named .. | .array .. | .byRef .. | .unknown => isFalse nofun
  | .unknown, t => match t with
    | .unknown => isTrue rfl
    | .named .. | .array .. | .byRef .. | .parameter .. => isFalse nofun

def decideListEq : (ss ts : List ResolvedType) → Decidable (ss = ts)
  | [], [] => isTrue rfl
  | [], _ :: _ => isFalse nofun
  | _ :: _, [] => isFalse nofun
  | s :: ss, t :: ts =>
    match decideEq s t, decideListEq ss ts with
    | isTrue h, isTrue hs => isTrue (by rw [h, hs])
    | isFalse h, _ => isFalse (by simp [h])
    | _, isFalse hs => isFalse (by simp [hs])

end

instance : DecidableEq ResolvedType := decideEq

def ofName («namespace» name : String) : ResolvedType := .named «namespace» name []

def builtin (b : BuiltinType) : ResolvedType := .ofName "System" b.name

def ofParameter (name : String) (hasDefaultConstructor : Bool) : ResolvedType :=
  .parameter ⟨name, hasDefaultConstructor⟩

def vector (element : ResolvedType) : ResolvedType := .array element 1

/-- The brackets of an array type: one comma between any two dimensions. -/
def brackets (rank : UInt32) : String :=
  "[" ++ String.ofList (List.replicate (rank.toNat - 1) ',') ++ "]"

/-- A name behind its namespace. -/
def qualify («namespace» name : String) : String :=
  if «namespace» = "" then name else «namespace» ++ "." ++ name

/-- What follows the last dot of a name. -/
def lastSegment (dotted : List Char) : List Char :=
  (dotted.reverse.takeWhile (· ≠ '.')).reverse

mutual

def text : ResolvedType → String
  | .named ns name arguments => qualify ns name ++ argumentsText arguments
  | .array element rank => text element ++ brackets rank
  | .byRef referent => text referent ++ "&"
  | .parameter p => p.name
  | .unknown => "?"

def argumentsText : List ResolvedType → String
  | [] => ""
  | first :: rest => "<" ++ text first ++ moreArgumentsText rest

def moreArgumentsText : List ResolvedType → String
  | [] => ">"
  | next :: rest => ", " ++ text next ++ moreArgumentsText rest

end

/-- The qualified name without type arguments; types that have no name of their
own give their text. -/
def fullName : ResolvedType → String
  | .named ns name _ => qualify ns name
  | t => t.text

def builtin? : ResolvedType → Option BuiltinType
  | .named ns name [] => if ns = "System" then BuiltinType.ofName? name else none
  | _ => none

def isBuiltin (t : ResolvedType) (b : BuiltinType) : Bool := t.builtin? == some b

def isString (t : ResolvedType) : Bool := t.isBuiltin .string

def isArray : ResolvedType → Bool
  | .array _ _ => true
  | _ => false

theorem builtin?_builtin (b : BuiltinType) : (builtin b).builtin? = some b := by
  simp [builtin, ofName, builtin?, BuiltinType.ofName?_name]

theorem eq_builtin_of_builtin? {t : ResolvedType} {b : BuiltinType} (h : t.builtin? = some b) :
    t = builtin b := by
  unfold builtin? at h
  split at h
  next ns name =>
    split at h
    next hns =>
      have hname := List.find?_some h
      rw [hns, ← beq_iff_eq.mp hname]
      rfl
    next => cases h
  next => cases h

theorem fullName_builtin (b : BuiltinType) : (builtin b).fullName = b.fullName := by
  cases b <;> rfl

end ResolvedType

end OperatorRecovery
