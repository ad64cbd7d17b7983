import OperatorRecovery.FloatText
import OperatorRecovery.LiteralText
import OperatorRecovery.Stmt

/-!
Source text of literals, expressions and statements. Each expression is printed
together with how tightly its outermost operator binds, and an operand that
binds looser than its place allows is put in parentheses.
-/

namespace OperatorRecovery

namespace Literal

def charBody (c : Char) : String :=
  if c = '\x27' then "\\\x27" else String.ofList (LiteralText.escapeChar c)

def text : Literal → String
  | .null => "null"
  | .bool b => if b then "true" else "false"
  | .int n => toString n.toInt
  | .decimal n => toString n.toInt ++ "m"
  | .float x => FloatText.source x
  | .char c => "\x27" ++ charBody c ++ "\x27"
  | .string s => "\"" ++ LiteralText.escape s ++ "\""

end Literal

/-- The text of an expression with its precedence. -/
structure Printed where
  precedence : Nat
  text : String

namespace Printed

/-- Names, calls, literals and everything else that needs no parentheses. -/
def primary : Nat := 15

/-- Unary operators and casts. -/
def unary : Nat := 12

def conditional : Nat := 1

/-- Argument markers, which stand in argument lists only. -/
def marker : Nat := 0

/-- The text as an operand, in parentheses if it binds looser than `least`. -/
def operand (least : Nat) (p : Printed) : String :=
  if p.precedence < least then "(" ++ p.text ++ ")" else p.text

end Printed

def commaSeparated (texts : List String) : String := ", ".intercalate texts

def argumentList (arguments : List Printed) : String :=
  "(" ++ commaSeparated (arguments.map (·.text)) ++ ")"

namespace Piece

def formatText : Option String → String
  | none => ""
  | some format => ":" ++ format

def print : Piece Printed → String
  | .text s => LiteralText.escapeInterpolated s
  | .interpolation e format => "\x7b" ++ e.text ++ formatText format ++ "\x7d"

end Piece

namespace Form

def precedence : Form ε → Nat
  | .binary op _ _ => op.precedence
  | .unary _ _ | .cast _ _ => Printed.unary
  | .conditional _ _ _ => Printed.conditional
  | .named _ _ | .directed _ _ => Printed.marker
  | _ => Printed.primary

def text : Form Printed → String
  | .hole => "<null>"
  | .identifier name => name
  | .literal value => value.text
  | .typeReference type => type.text
  | .typeOf type => "typeof(" ++ type.text ++ ")"
  | .refType e => "__reftype(" ++ e.text ++ ")"
  | .member target name typeArguments =>
    target.operand Printed.primary ++ "." ++ name ++ TypeSyntax.argumentsText typeArguments
  | .call target arguments => target.operand Printed.primary ++ argumentList arguments
  | .binary op left right =>
    left.operand op.precedence ++ " " ++ op.token ++ " " ++ right.operand (op.precedence + 1)
  | .unary op operand => op.token ++ operand.operand Printed.unary
  | .cast type operand => "(" ++ type.text ++ ")" ++ operand.operand Printed.unary
  | .creation type arguments => "new " ++ type.text ++ argumentList arguments
  | .interpolated pieces => "$\"" ++ String.join (pieces.map Piece.print) ++ "\""
  | .conditional condition whenTrue whenFalse =>
    condition.operand (Printed.conditional + 1) ++ " ? " ++ whenTrue.operand Printed.conditional ++
      " : " ++ whenFalse.operand Printed.conditional
  | .parenthesized e => "(" ++ e.text ++ ")"
  | .directed direction e => direction.token ++ " " ++ e.text
  | .named name e => name ++ ": " ++ e.text

def print (form : Form Printed) : Printed := ⟨form.precedence, form.text⟩

theorem precedence_map (g : ε → δ) (form : Form ε) : (form.map g).precedence = form.precedence := by
  cases form <;> rfl

end Form

namespace Expr

def print : Expr → Printed := fold fun form _ => form.print

def text (e : Expr) : String := e.print.text

theorem print_mk (form : Form Expr) (annotations : Annotations) :
    print ⟨form, annotations⟩ = (form.map print).print := by
  simp only [print, fold_mk]

end Expr

namespace Stmt

def indentation (level : Nat) : String := String.ofList (List.replicate (4 * level) ' ')

mutual

def textAt (level : Nat) : Stmt → String
  | .expr e => indentation level ++ e.text ++ ";\n"
  | .declaration type name none => indentation level ++ type.text ++ " " ++ name ++ ";\n"
  | .declaration type name (some value) =>
    indentation level ++ type.text ++ " " ++ name ++ " = " ++ value.text ++ ";\n"
  | .ifElse condition thenBody none =>
    indentation level ++ "if (" ++ condition.text ++ ") \x7b\n" ++
      bodyTextAt (level + 1) thenBody ++ indentation level ++ "\x7d\n"
  | .ifElse condition thenBody (some elseBody) =>
    indentation level ++ "if (" ++ condition.text ++ ") \x7b\n" ++
      bodyTextAt (level + 1) thenBody ++ indentation level ++ "\x7d else \x7b\n" ++ bodyTextAt (level + 1) elseBody ++
      indentation level ++ "\x7d\n"
  | .while condition body =>
    indentation level ++ "while (" ++ condition.text ++ ") \x7b\n" ++ bodyTextAt (level + 1) body ++
      indentation level ++ "\x7d\n"
  | .return none => indentation level ++ "return;\n"
  | .return (some value) => indentation level ++ "return " ++ value.text ++ ";\n"
  | .block body =>
    indentation level ++ "\x7b\n" ++ bodyTextAt (level + 1) body ++ indentation level ++ "\x7d\n"

def bodyTextAt (level : Nat) : List Stmt → String
  | [] => ""
  | s :: rest => textAt level s ++ bodyTextAt level rest

end

def text (s : Stmt) : String := textAt 0 s

end Stmt

end OperatorRecovery
