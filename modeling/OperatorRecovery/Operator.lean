/-!
Operators of the source language with their tokens, precedences, and the
metadata names under which their user-defined overloads compile. A higher
precedence binds tighter.
-/

namespace OperatorRecovery

inductive BinaryOperator
  | add
  | subtract
  | multiply
  | divide
  | modulus
  | bitwiseAnd
  | bitwiseOr
  | exclusiveOr
  | shiftLeft
  | shiftRight
  | unsignedShiftRight
  | equality
  | inequality
  | lessThan
  | lessThanOrEqual
  | greaterThan
  | greaterThanOrEqual
  deriving DecidableEq, Repr

namespace BinaryOperator

def all : List BinaryOperator :=
  [.add, .subtract, .multiply, .divide, .modulus, .bitwiseAnd, .bitwiseOr, .exclusiveOr,
   .shiftLeft, .shiftRight, .unsignedShiftRight, .equality, .inequality, .lessThan,
   .lessThanOrEqual, .greaterThan, .greaterThanOrEqual]

def token : BinaryOperator → String
  | .add => "+"
  | .subtract => "-"
  | .multiply => "*"
  | .divide => "/"
  | .modulus => "%"
  | .bitwiseAnd => "&"
  | .bitwiseOr => "|"
  | .exclusiveOr => "^"
  | .shiftLeft => "<<"
  | .shiftRight => ">>"
  | .unsignedShiftRight => ">>>"
  | .equality => "=="
  | .inequality => "!="
  | .lessThan => "<"
  | .lessThanOrEqual => "<="
  | .greaterThan => ">"
  | .greaterThanOrEqual => ">="

def precedence : BinaryOperator → Nat
  | .bitwiseOr => 3
  | .exclusiveOr => 4
  | .bitwiseAnd => 5
  | .equality | .inequality => 6
  | .lessThan | .lessThanOrEqual | .greaterThan | .greaterThanOrEqual => 7
  | .shiftLeft | .shiftRight | .unsignedShiftRight => 8
  | .add | .subtract => 9
  | .multiply | .divide | .modulus => 10

def metadataName : BinaryOperator → String
  | .add => "op_Addition"
  | .subtract => "op_Subtraction"
  | .multiply => "op_Multiply"
  | .divide => "op_Division"
  | .modulus => "op_Modulus"
  | .bitwiseAnd => "op_BitwiseAnd"
  | .bitwiseOr => "op_BitwiseOr"
  | .exclusiveOr => "op_ExclusiveOr"
  | .shiftLeft => "op_LeftShift"
  | .shiftRight => "op_RightShift"
  | .unsignedShiftRight => "op_UnsignedRightShift"
  | .equality => "op_Equality"
  | .inequality => "op_Inequality"
  | .lessThan => "op_LessThan"
  | .lessThanOrEqual => "op_LessThanOrEqual"
  | .greaterThan => "op_GreaterThan"
  | .greaterThanOrEqual => "op_GreaterThanOrEqual"

def ofMetadataName? (name : String) : Option BinaryOperator :=
  all.find? (·.metadataName == name)

theorem mem_all (op : BinaryOperator) : op ∈ all := by cases op <;> decide

theorem metadataName_of_ofMetadataName? {name : String} {op : BinaryOperator}
    (h : ofMetadataName? name = some op) : op.metadataName = name := by
  have := List.find?_some h
  simpa using this

end BinaryOperator

inductive UnaryOperator
  | not
  | bitNot
  | minus
  | plus
  | increment
  | decrement
  deriving DecidableEq, Repr

namespace UnaryOperator

def all : List UnaryOperator := [.not, .bitNot, .minus, .plus, .increment, .decrement]

def token : UnaryOperator → String
  | .not => "!"
  | .bitNot => "~"
  | .minus => "-"
  | .plus => "+"
  | .increment => "++"
  | .decrement => "--"

def metadataName : UnaryOperator → String
  | .not => "op_LogicalNot"
  | .bitNot => "op_OnesComplement"
  | .minus => "op_UnaryNegation"
  | .plus => "op_UnaryPlus"
  | .increment => "op_Increment"
  | .decrement => "op_Decrement"

def ofMetadataName? (name : String) : Option UnaryOperator :=
  all.find? (·.metadataName == name)

theorem mem_all (op : UnaryOperator) : op ∈ all := by cases op <;> decide

theorem metadataName_of_ofMetadataName? {name : String} {op : UnaryOperator}
    (h : ofMetadataName? name = some op) : op.metadataName = name := by
  have := List.find?_some h
  simpa using this

end UnaryOperator

/-- How an argument is passed when not by value. -/
inductive Direction
  | readonly
  | reference
  | output
  deriving DecidableEq, Repr

def Direction.token : Direction → String
  | .readonly => "in"
  | .reference => "ref"
  | .output => "out"

end OperatorRecovery
