import OperatorRecovery.Expr

/-!
Statements. A statement owns some expressions directly, each in a role, and
nests further statements; a map over expressions reaches those at every depth.
-/

namespace OperatorRecovery

inductive Stmt
  | expr (expr : Expr)
  | declaration (type : TypeSyntax) (name : String) (value : Option Expr)
  | ifElse (condition : Expr) (thenBody : List Stmt) (elseBody : Option (List Stmt))
  | while (condition : Expr) (body : List Stmt)
  | return (value : Option Expr)
  | block (body : List Stmt)

namespace Stmt

/-- The expressions that the statement owns directly. -/
def exprs : Stmt → List (Role × Expr)
  | .expr e => [(.expression, e)]
  | .declaration _ _ value => value.toList.map (Role.expression, ·)
  | .ifElse condition _ _ => [(.condition, condition)]
  | .while condition _ => [(.condition, condition)]
  | .return value => value.toList.map (Role.expression, ·)
  | .block _ => []

/-- The statements directly inside, in source order. -/
def body : Stmt → List Stmt
  | .ifElse _ thenBody elseBody => thenBody ++ elseBody.getD []
  | .while _ body | .block body => body
  | _ => []

mutual

def mapExprs (g : Role → Expr → Expr) : Stmt → Stmt
  | .expr e => .expr (g .expression e)
  | .declaration type name value => .declaration type name (value.map (g .expression))
  | .ifElse condition thenBody none =>
    .ifElse (g .condition condition) (mapExprsList g thenBody) none
  | .ifElse condition thenBody (some elseBody) =>
    .ifElse (g .condition condition) (mapExprsList g thenBody) (some (mapExprsList g elseBody))
  | .while condition body => .while (g .condition condition) (mapExprsList g body)
  | .return value => .return (value.map (g .expression))
  | .block body => .block (mapExprsList g body)

def mapExprsList (g : Role → Expr → Expr) : List Stmt → List Stmt
  | [] => []
  | s :: rest => mapExprs g s :: mapExprsList g rest

end

end Stmt

end OperatorRecovery
