import OperatorRecovery.Stmt
import OperatorRecovery.SymbolJson

/-!
The serialized form of literals, expressions and statements. Empty annotations
and type arguments are left out, and so are an absent format, initial value or
else branch; an else branch without statements is kept.
-/

namespace OperatorRecovery

open Json

namespace BinaryOperator

def jsonName : BinaryOperator → String
  | .add => "add"
  | .subtract => "subtract"
  | .multiply => "multiply"
  | .divide => "divide"
  | .modulus => "modulus"
  | .bitwiseAnd => "bitwise_and"
  | .bitwiseOr => "bitwise_or"
  | .exclusiveOr => "exclusive_or"
  | .shiftLeft => "shift_left"
  | .shiftRight => "shift_right"
  | .unsignedShiftRight => "unsigned_shift_right"
  | .equality => "equality"
  | .inequality => "in_equality"
  | .lessThan => "less_than"
  | .lessThanOrEqual => "less_than_or_equal"
  | .greaterThan => "greater_than"
  | .greaterThanOrEqual => "greater_than_or_equal"

def toJson (op : BinaryOperator) : Json := .string op.jsonName

def ofJson? (room : Nat) (j : Json) : Option BinaryOperator :=
  (name? room j).bind fun name => all.find? (·.jsonName == name)

instance : Serialized BinaryOperator := ⟨toJson, fun _ => ofJson?⟩

theorem ofJson?_toJson (room : Nat) (op : BinaryOperator) : ofJson? room op.toJson = some op := by
  cases room <;> cases op <;> rfl

end BinaryOperator

namespace UnaryOperator

def jsonName : UnaryOperator → String
  | .not => "not"
  | .bitNot => "bit_not"
  | .minus => "minus"
  | .plus => "plus"
  | .increment => "increment"
  | .decrement => "decrement"

def toJson (op : UnaryOperator) : Json := .string op.jsonName

def ofJson? (room : Nat) (j : Json) : Option UnaryOperator :=
  (name? room j).bind fun name => all.find? (·.jsonName == name)

instance : Serialized UnaryOperator := ⟨toJson, fun _ => ofJson?⟩

theorem ofJson?_toJson (room : Nat) (op : UnaryOperator) : ofJson? room op.toJson = some op := by
  cases room <;> cases op <;> rfl

end UnaryOperator

namespace Direction

def ofToken? : String → Option Direction
  | "in" => some .readonly
  | "ref" => some .reference
  | "out" => some .output
  | _ => none

def toJson (d : Direction) : Json := .string d.token

def ofJson? (room : Nat) (j : Json) : Option Direction := (name? room j).bind ofToken?

instance : Serialized Direction := ⟨toJson, fun _ => ofJson?⟩

theorem ofJson?_toJson (room : Nat) (d : Direction) : ofJson? room d.toJson = some d := by
  cases room <;> cases d <;> rfl

end Direction

namespace Literal

def toJson : Literal → Json
  | .null => .string "null"
  | .bool b => .object [("bool", .bool b)]
  | .int n => .object [("int", .int n.toInt)]
  | .decimal n => .object [("decimal", .int n.toInt)]
  | .float x => .object [("float", if x.isFinite then .float x else .null)]
  | .char c => .object [("char", .string (String.singleton c))]
  | .string s => .object [("string", .string s)]

def ofJson? : Nat → Json → Option Literal
  | _, .string s => if s = "null" then some .null else none
  | _ + 1, .object [(tag, content)] =>
    match tag with
    | "null" => match content with
      | .null => some .null
      | _ => none
    | "bool" => (bool? content).map .bool
    | "int" => (int64? content).map .int
    | "decimal" => (int64? content).map .decimal
    | "float" => (float? content).map .float
    | "char" => (char? content).map .char
    | "string" => (string? content).map .string
    | _ => none
  | _, _ => none

instance : Serialized Literal := ⟨toJson, fun _ => ofJson?⟩

end Literal

namespace Piece

def toJson : Piece Json → Json
  | .text s => .object [("text", .string s)]
  | .interpolation e format =>
    .object [("interpolation", .object
      (("expr", e) :: format.toList.map fun spec => ("format", .string spec)))]

end Piece

namespace Form

def toJson : Form Json → Json
  | .hole => .string "null"
  | .identifier name => .object [("identifier", .string name)]
  | .literal value => .object [("primitive", value.toJson)]
  | .typeReference type => .object [("type_reference", type.toJson)]
  | .typeOf type => .object [("type_of", type.toJson)]
  | .refType e => .object [("ref_type", e)]
  | .member target name typeArguments =>
    .object [("member_access", .object
      ([("target", target), ("member", .string name)] ++
        unlessEmpty "type_args" (typeArguments.map TypeSyntax.toJson)))]
  | .call target arguments =>
    .object [("invocation", .object [("target", target), ("args", .array arguments)])]
  | .binary op left right =>
    .object [("binary", .object [("op", op.toJson), ("left", left), ("right", right)])]
  | .unary op operand =>
    .object [("unary", .object [("op", op.toJson), ("operand", operand)])]
  | .cast type operand =>
    .object [("cast", .object [("ty", type.toJson), ("expr", operand)])]
  | .creation type arguments =>
    .object [("object_creation", .object [("ty", type.toJson), ("args", .array arguments)])]
  | .interpolated pieces => .object [("interpolated_string", .array (pieces.map Piece.toJson))]
  | .conditional condition whenTrue whenFalse =>
    .object [("conditional", .object
      [("cond", condition), ("then_expr", whenTrue), ("else_expr", whenFalse)])]
  | .parenthesized e => .object [("parenthesized", e)]
  | .directed direction e =>
    .object [("direction", .object [("direction", direction.toJson), ("expr", e)])]
  | .named name e =>
    .object [("named_argument", .object [("name", .string name), ("expr", e)])]

end Form

namespace Expr

def toJson : Expr → Json :=
  fold fun form annotations =>
    .object (("kind", form.toJson) ::
      unlessEmpty "annotations" (annotations.map Annotation.toJson))

mutual

def ofJson? (source : Source) : Nat → Json → Option Expr
  | room + 1, j =>
    match record? ["kind", "annotations"] j with
    | some [some kind, annotations] =>
      return ⟨← formOfJson? source room kind,
        ← orElse [] (Annotations.ofJson? source room) annotations⟩
    | _ => none
  | 0, _ => none

def formOfJson? (source : Source) : Nat → Json → Option (Form Expr)
  | _, .string s => if s = "null" then some .hole else none
  | room + 1, .object [(tag, content)] =>
    match tag with
    | "null" => match content with
      | .null => some .hole
      | _ => none
    | "identifier" => (string? content).map .identifier
    | "primitive" => (Literal.ofJson? room content).map .literal
    | "type_reference" => (TypeSyntax.ofJson? source room content).map .typeReference
    | "type_of" => (TypeSyntax.ofJson? source room content).map .typeOf
    | "ref_type" => (ofJson? source room content).map .refType
    | "member_access" =>
      match room, variant? source ["target", "member", "type_args"] content with
      | room + 1, some [some target, some name, typeArguments] =>
        return .member (← ofJson? source room target) (← string? name)
          (← orElse [] (TypeSyntax.listOfJson? source room) typeArguments)
      | _, _ => none
    | "invocation" =>
      match room, variant? source ["target", "args"] content with
      | room + 1, some [some target, some arguments] =>
        return .call (← ofJson? source room target) (← listOfJson? source room arguments)
      | _, _ => none
    | "binary" =>
      match room, variant? source ["op", "left", "right"] content with
      | room + 1, some [some op, some left, some right] =>
        return .binary (← BinaryOperator.ofJson? room op) (← ofJson? source room left)
          (← ofJson? source room right)
      | _, _ => none
    | "unary" =>
      match room, variant? source ["op", "operand"] content with
      | room + 1, some [some op, some operand] =>
        return .unary (← UnaryOperator.ofJson? room op) (← ofJson? source room operand)
      | _, _ => none
    | "cast" =>
      match room, variant? source ["ty", "expr"] content with
      | room + 1, some [some type, some operand] =>
        return .cast (← TypeSyntax.ofJson? source room type) (← ofJson? source room operand)
      | _, _ => none
    | "object_creation" =>
      match room, variant? source ["ty", "args"] content with
      | room + 1, some [some type, some arguments] =>
        return .creation (← TypeSyntax.ofJson? source room type)
          (← listOfJson? source room arguments)
      | _, _ => none
    | "interpolated_string" => (piecesOfJson? source room content).map .interpolated
    | "conditional" =>
      match room, variant? source ["cond", "then_expr", "else_expr"] content with
      | room + 1, some [some condition, some whenTrue, some whenFalse] =>
        return .conditional (← ofJson? source room condition) (← ofJson? source room whenTrue)
          (← ofJson? source room whenFalse)
      | _, _ => none
    | "parenthesized" => (ofJson? source room content).map .parenthesized
    | "direction" =>
      match room, variant? source ["direction", "expr"] content with
      | room + 1, some [some direction, some e] =>
        return .directed (← Direction.ofJson? room direction) (← ofJson? source room e)
      | _, _ => none
    | "named_argument" =>
      match room, variant? source ["name", "expr"] content with
      | room + 1, some [some name, some e] =>
        return .named (← string? name) (← ofJson? source room e)
      | _, _ => none
    | _ => none
  | _, _ => none

def pieceOfJson? (source : Source) : Nat → Json → Option (Piece Expr)
  | room + 1, .object [(tag, content)] =>
    match tag with
    | "text" => (string? content).map .text
    | "interpolation" =>
      match room, variant? source ["expr", "format"] content with
      | room + 1, some [some e, format] =>
        return .interpolation (← ofJson? source room e) (← orElse none (orNull string?) format)
      | _, _ => none
    | _ => none
  | _, _ => none

def listOfJson? (source : Source) : Nat → Json → Option (List Expr)
  | room + 1, .array items => items.mapM (ofJson? source room)
  | _, _ => none

def piecesOfJson? (source : Source) : Nat → Json → Option (List (Piece Expr))
  | room + 1, .array items => items.mapM (pieceOfJson? source room)
  | _, _ => none

end

instance : Serialized Expr := ⟨toJson, ofJson?⟩

theorem formOfJson?_hole (source : Source) (room : Nat) :
    formOfJson? source room (Form.toJson .hole) = some .hole := by
  rw [Form.toJson, formOfJson?, if_pos rfl]

theorem toJson_mk (form : Form Expr) (annotations : Annotations) :
    toJson ⟨form, annotations⟩ =
      .object (("kind", (form.map toJson).toJson) ::
        unlessEmpty "annotations" (annotations.map Annotation.toJson)) := by
  rw [toJson, fold_mk]

end Expr

def Piece.toValue (piece : Piece Expr) : Json := (piece.map Expr.toJson).toJson

instance : Serialized (Piece Expr) := ⟨Piece.toValue, Expr.pieceOfJson?⟩

namespace Stmt

mutual

def toJson : Stmt → Json
  | .expr e => .object [("expr", e.toJson)]
  | .declaration type name value =>
    .object [("var_decl", .object
      ([("ty", type.toJson), ("name", .string name)] ++
        value.toList.map fun e => ("init", e.toJson)))]
  | .ifElse condition thenBody none =>
    .object [("if", .object
      [("cond", condition.toJson), ("then_body", .array (bodyToJson thenBody))])]
  | .ifElse condition thenBody (some elseBody) =>
    .object [("if", .object
      [("cond", condition.toJson), ("then_body", .array (bodyToJson thenBody)),
        ("else_body", .array (bodyToJson elseBody))])]
  | .while condition body =>
    .object [("while", .object
      [("cond", condition.toJson), ("body", .array (bodyToJson body))])]
  | .return none => .object [("return", .null)]
  | .return (some value) => .object [("return", value.toJson)]
  | .block body => .object [("block", .array (bodyToJson body))]

def bodyToJson : List Stmt → List Json
  | [] => []
  | s :: rest => toJson s :: bodyToJson rest

end

mutual

def ofJson? (source : Source) : Nat → Json → Option Stmt
  | room + 1, .object [(tag, content)] =>
    match tag with
    | "expr" => (Expr.ofJson? source room content).map .expr
    | "var_decl" =>
      match room, variant? source ["ty", "name", "init"] content with
      | room + 1, some [some type, some name, value] =>
        return .declaration (← TypeSyntax.ofJson? source room type) (← string? name)
          (← orElse none (orNull (Expr.ofJson? source room)) value)
      | _, _ => none
    | "if" =>
      match room, variant? source ["cond", "then_body", "else_body"] content with
      | room + 1, some [some condition, some thenBody, elseBody] =>
        return .ifElse (← Expr.ofJson? source room condition) (← bodyOfJson? source room thenBody)
          (← orElse none (orNull (bodyOfJson? source room)) elseBody)
      | _, _ => none
    | "while" =>
      match room, variant? source ["cond", "body"] content with
      | room + 1, some [some condition, some body] =>
        return .while (← Expr.ofJson? source room condition) (← bodyOfJson? source room body)
      | _, _ => none
    | "return" => (orNull (Expr.ofJson? source room) content).map .return
    | "block" => (bodyOfJson? source room content).map .block
    | _ => none
  | _, _ => none

def bodyOfJson? (source : Source) : Nat → Json → Option (List Stmt)
  | room + 1, .array items => items.mapM (ofJson? source room)
  | _, _ => none

end

instance : Serialized Stmt := ⟨toJson, ofJson?⟩

end Stmt

end OperatorRecovery
