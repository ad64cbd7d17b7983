import OperatorRecovery.ResolvedType

/-!
Resolved symbols: the methods, fields and types that syntax nodes denote.
-/

namespace OperatorRecovery

structure Parameter where
  name : String
  type : ResolvedType

/-- A method, constructor or operator under its metadata name. -/
structure Method where
  name : String
  declaringType : ResolvedType
  isStatic : Bool
  parameters : List Parameter
  returnType : ResolvedType
  /-- The type arguments of a generic instantiation. -/
  typeArguments : List ResolvedType

structure Field where
  name : String
  declaringType : ResolvedType
  type : ResolvedType

inductive Symbol
  | method (method : Method)
  | field (field : Field)
  | type (type : ResolvedType)

namespace Method

def fullName (m : Method) : String := m.declaringType.fullName ++ "." ++ m.name

def isNamed (m : Method) (declaringType name : String) : Bool :=
  m.name == name && m.declaringType.fullName == declaringType

/-- A static method without parameters that returns nothing. -/
def ofName (declaringType : ResolvedType) (name : String) : Method :=
  ⟨name, declaringType, true, [], .builtin .void, []⟩

end Method

def Field.fullName (f : Field) : String := f.declaringType.fullName ++ "." ++ f.name

end OperatorRecovery
