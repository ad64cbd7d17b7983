import OperatorRecovery.FormatPlan

/-!
Calls of `String.Format` as interpolated strings. The format has to be a literal
whose plan covers the arguments. A string literal inside an argument would put
quotes into the interpolated string, and an array passed for the variable part
of the parameters holds the arguments instead of being one; such calls stay.
-/

namespace OperatorRecovery.Interpolation

def methodName : String := "System.String.Format"

def format? (e : Expr) : Option String :=
  match e.form with
  | .literal (.string s) => some s
  | _ => none

/-- The last parameter takes an array, and it is passed as such. -/
def passesArray (method : Method) (argumentCount : Nat) : Bool :=
  method.parameters.getLast?.any (·.type.isArray) && method.parameters.length == argumentCount

def recover? (method : Method) (call : Expr) : Option Expr :=
  match call.arguments with
  | format :: first :: rest =>
    if method.fullName == methodName && !(first :: rest).any Expr.containsStringLiteral &&
        !(format :: first :: rest).any Expr.isNamed &&
        !passesArray method (format :: first :: rest).length then
      (format? format).bind fun text =>
        match FormatPlan.plan text.toList (first :: rest).length with
        | .ok segments =>
          some ⟨.interpolated (FormatPlan.build segments (first :: rest)), call.annotations⟩
        | .error _ => none
    else none
  | _ => none

end OperatorRecovery.Interpolation
