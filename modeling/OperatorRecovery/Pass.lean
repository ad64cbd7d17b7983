import OperatorRecovery.Concatenation
import OperatorRecovery.Handle
import OperatorRecovery.Instantiation
import OperatorRecovery.Interpolation
import OperatorRecovery.OperatorCall
import OperatorRecovery.Stmt

/-!
The recovery pass. It walks a tree once, parts before the whole, and offers
every call with a resolved method to the enabled rules in a fixed order. The
first rule that accepts the call replaces it and the others are not asked; a
call that no rule accepts stays as it is.
-/

namespace OperatorRecovery

namespace Pass

def name : String := "replace-method-calls-with-operators"

/-- What a rule makes of a call in a role, if it is enabled and accepts the call. -/
def recoverBy? (settings : Settings) (spelling : Spelling) (role : Role) (method : Method)
    (call : Expr) : Rule → Option Expr
  | .stringConcat =>
    if settings.isEnabled .stringConcat then Concatenation.recover? method call else none
  | .handleUnwrapping =>
    if settings.isEnabled .handleUnwrapping then (Handle.type? call).or (Handle.field? call)
    else none
  | .genericInstantiation =>
    if settings.isEnabled .genericInstantiation then Instantiation.recover? spelling method call
    else none
  | .stringInterpolation =>
    if settings.interpolatesStrings then Interpolation.recover? method call else none
  | .binaryOperators =>
    if settings.isEnabled .binaryOperators then OperatorCall.binary? settings method call else none
  | .unaryOperators =>
    if settings.isEnabled .unaryOperators then OperatorCall.unary? method call else none
  | .explicitConversion =>
    if settings.isEnabled .explicitConversion then OperatorCall.explicit? spelling method call
    else none
  | .operatorTrue =>
    if settings.isEnabled .operatorTrue && role == .condition then OperatorCall.truth? method call
    else none

/-- The first rule that accepts a call decides what becomes of it. -/
def dispatch? (settings : Settings) (spelling : Spelling) (role : Role) (call : Expr) :
    Option Expr :=
  call.method?.bind fun method => Rule.all.findSome? (recoverBy? settings spelling role method call)

/-- Recovers the outermost form of an expression whose parts are done. -/
def recoverNode (settings : Settings) (spelling : Spelling) (role : Role) (e : Expr) : Expr :=
  match e.form with
  | .call _ _ => (dispatch? settings spelling role e).getD e
  | .cast _ _ =>
    if settings.isEnabled .handleUnwrapping then (Handle.method? spelling e).getD e else e
  | _ => e

end Pass

def Expr.recoverIn (settings : Settings) (spelling : Spelling) (role : Role) (e : Expr) : Expr :=
  e.fold (fun form annotations role =>
    Pass.recoverNode settings spelling role
      ⟨form.mapSlots fun _ partRole part => part partRole, annotations⟩) role

def Expr.recover (settings : Settings) (spelling : Spelling) (e : Expr) : Expr :=
  e.recoverIn settings spelling .expression

def Stmt.recover (settings : Settings) (spelling : Spelling) (s : Stmt) : Stmt :=
  s.mapExprs (Expr.recoverIn settings spelling)

/-- The equation of the pass: the parts are recovered in their roles, then the
expression itself. -/
theorem Expr.recoverIn_mk (settings : Settings) (spelling : Spelling) (role : Role)
    (form : Form Expr) (annotations : Annotations) :
    Expr.recoverIn settings spelling role ⟨form, annotations⟩ =
      Pass.recoverNode settings spelling role
        ⟨form.mapSlots fun _ partRole part => part.recoverIn settings spelling partRole,
          annotations⟩ := by
  rw [Expr.recoverIn, Expr.fold_mk, Form.mapSlots_map]
  rfl

end OperatorRecovery
