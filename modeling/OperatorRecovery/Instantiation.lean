import OperatorRecovery.Spelling
import OperatorRecovery.Expr

/-!
Calls of `Activator.CreateInstance<T>()` as object creations, when `T` is a type
parameter that promises a constructor without arguments.
-/

namespace OperatorRecovery.Instantiation

def methodName : String := "System.Activator.CreateInstance"

/-- The type parameter that a call instantiates. -/
def parameter? (method : Method) : Option TypeParameter :=
  match method.typeArguments with
  | [.parameter p] => if p.hasDefaultConstructor then some p else none
  | _ => none

def recover? (spelling : Spelling) (method : Method) (call : Expr) : Option Expr :=
  if method.fullName == methodName && call.arguments.isEmpty then
    (parameter? method).map fun p =>
      ⟨.creation (spelling (.parameter p)) [], call.annotations⟩
  else none

end OperatorRecovery.Instantiation
