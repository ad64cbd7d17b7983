import OperatorRecovery.Settings
import OperatorRecovery.Spelling
import OperatorRecovery.Path

/-!
Calls of user-defined operators as operators, conversions and truth tests. An
operand passed by readonly reference loses its marker, since operators pass
their operands that way by themselves.
-/

namespace OperatorRecovery.OperatorCall

def explicitName : String := "op_Explicit"

def trueName : String := "op_True"

/-- The operand without one outer `in`. -/
def operand (argument : Expr) : Expr :=
  match argument.form with
  | .directed .readonly inner => inner
  | _ => argument

/-- Without an outer `in` the operand is the whole argument. -/
theorem operand_eq_self {argument : Expr}
    (unmarked : ∀ inner marker, argument = ⟨.directed .readonly inner, marker⟩ → False) :
    operand argument = argument := by
  obtain ⟨form, marker⟩ := argument
  unfold operand
  split
  · rename_i inner hform
    cases hform
    exact absurd rfl (unmarked inner marker)
  · rfl

def isAvailable (settings : Settings) (op : BinaryOperator) : Bool :=
  op != .unsignedShiftRight || settings.hasUnsignedRightShift

def binary? (settings : Settings) (method : Method) (call : Expr) : Option Expr :=
  match call.arguments, BinaryOperator.ofMetadataName? method.name with
  | [left, right], some op =>
    if isAvailable settings op then
      some ⟨.binary op (operand left) (operand right), call.annotations⟩
    else none
  | _, _ => none

/-- The addition or subtraction that steps a decimal by one. -/
def decimalStep? : UnaryOperator → Option BinaryOperator
  | .increment => some .add
  | .decrement => some .subtract
  | _ => none

/-- Older compilers emit the increment operator of `decimal` for `a + 1`, where
`++a` would assign to `a`. -/
def unaryForm (method : Method) (op : UnaryOperator) (argument : Expr) : Form Expr :=
  match method.declaringType.isBuiltin .decimal, decimalStep? op with
  | true, some step => .binary step argument (.ofForm (.literal (.decimal 1)))
  | _, _ => .unary op argument

def unary? (method : Method) (call : Expr) : Option Expr :=
  match call.arguments, UnaryOperator.ofMetadataName? method.name with
  | [argument], some op => some ⟨unaryForm method op (operand argument), call.annotations⟩
  | _, _ => none

def explicit? (spelling : Spelling) (method : Method) (call : Expr) : Option Expr :=
  match call.arguments with
  | [argument] =>
    if method.name == explicitName then
      some ⟨.cast (spelling method.returnType) (operand argument), call.annotations⟩
    else none
  | _ => none

def isTrueTest (annotations : Annotations) : Bool :=
  (Annotations.method? annotations).any (·.name == trueName)

/-- Strips truth tests from the outside in. The ranges of those already stripped
follow the ranges of the next one. -/
def stripTrueTests (stripped : List InstructionRange) : Expr → Expr
  | ⟨.call target [⟨.directed .readonly inner, marker⟩], annotations⟩ =>
    if isTrueTest annotations then
      stripTrueTests (Annotations.instructions annotations ++ stripped) inner
    else
      ⟨.call target [⟨.directed .readonly inner, marker⟩],
        annotations ++ Annotations.ofInstructions stripped⟩
  | ⟨.call target [argument], annotations⟩ =>
    if isTrueTest annotations then
      stripTrueTests (Annotations.instructions annotations ++ stripped) argument
    else ⟨.call target [argument], annotations ++ Annotations.ofInstructions stripped⟩
  | ⟨form, annotations⟩ => ⟨form, annotations ++ Annotations.ofInstructions stripped⟩

def truth? (method : Method) (call : Expr) : Option Expr :=
  match call.arguments with
  | [_] => if method.name == trueName then some (stripTrueTests [] call) else none
  | _ => none

end OperatorRecovery.OperatorCall
