import OperatorRecovery.Expr

/-!
Calls of `String.Concat` as chains of additions. The chain leans to the left, so
it means concatenation from its first addition on when one of the first two
operands is a string. Overloads over arrays concatenate elements, not arguments,
and named arguments may stand in another order; both keep the call.
-/

namespace OperatorRecovery.Concatenation

def methodName : String := "System.String.Concat"

def accepts (method : Method) : Bool :=
  method.fullName == methodName && method.isStatic &&
    !method.parameters.any (·.type.isArray)

def isString (e : Expr) : Bool := e.staticType?.any ResolvedType.isString

/-- `first + x₁ + x₂ + …`, with no annotations of its own. -/
def chain (first : Expr) (rest : List Expr) : Expr :=
  rest.foldl (fun sum e => .ofForm (.binary .add sum e)) first

def recover? (method : Method) (call : Expr) : Option Expr :=
  match call.arguments with
  | first :: second :: rest =>
    if accepts method && !(first :: second :: rest).any Expr.isNamed &&
        (isString first || isString second) then
      some ⟨(chain first (second :: rest)).form, call.annotations⟩
    else none
  | _ => none

/-- A chain of two operands or more is an addition outside. -/
theorem exists_chain_eq (first second : Expr) (rest : List Expr) :
    ∃ left right annotations,
      chain first (second :: rest) = ⟨.binary .add left right, annotations⟩ := by
  induction rest generalizing first second with
  | nil => exact ⟨first, second, [], rfl⟩
  | cons third rest ih => exact ih (.ofForm (.binary .add first second)) third

end OperatorRecovery.Concatenation
