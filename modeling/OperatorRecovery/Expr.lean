import OperatorRecovery.Annotation
import OperatorRecovery.Operator
import OperatorRecovery.TypeSyntax

/-!
Expressions. A form says what an expression is made of, over any type that
stands in the slots for its parts; an expression is a form over expressions
with annotations attached. The slots have an order and a role each, and every
reading of a whole expression is a fold that replaces parts by what was read.
-/

namespace OperatorRecovery

inductive Literal
  | null
  | bool (value : Bool)
  | int (value : Int64)
  /-- A whole literal of the type `decimal`. -/
  | decimal (value : Int64)
  | float (value : Float)
  | char (value : Char)
  | string (value : String)

/-- A piece of an interpolated string: unescaped text, or a slot with the format
it is shown in. -/
inductive Piece (ε : Type)
  | text (text : String)
  | interpolation (expr : ε) (format : Option String)

namespace Piece

def map (g : ε → δ) : Piece ε → Piece δ
  | .text s => .text s
  | .interpolation e format => .interpolation (g e) format

def slot? : Piece ε → Option ε
  | .text _ => none
  | .interpolation e _ => some e

end Piece

/-- The place that a part occupies in the expression or statement around it. -/
inductive Role
  | condition
  | target
  | argument
  | expression
  deriving DecidableEq, Repr

def Role.name : Role → String
  | .condition => "condition"
  | .target => "target"
  | .argument => "argument"
  | .expression => "expression"

inductive Form (ε : Type)
  /-- A slot whose expression was taken away. -/
  | hole
  | identifier (name : String)
  | literal (value : Literal)
  | typeReference (type : TypeSyntax)
  | typeOf (type : TypeSyntax)
  | refType (operand : ε)
  | member (target : ε) (name : String) (typeArguments : List TypeSyntax)
  | call (target : ε) (arguments : List ε)
  | binary (op : BinaryOperator) (left right : ε)
  | unary (op : UnaryOperator) (operand : ε)
  | cast (type : TypeSyntax) (operand : ε)
  | creation (type : TypeSyntax) (arguments : List ε)
  | interpolated (pieces : List (Piece ε))
  | conditional (condition whenTrue whenFalse : ε)
  | parenthesized (inner : ε)
  | directed (direction : Direction) (inner : ε)
  | named (name : String) (inner : ε)

namespace Form

def map (g : ε → δ) : Form ε → Form δ
  | .hole => .hole
  | .identifier name => .identifier name
  | .literal value => .literal value
  | .typeReference type => .typeReference type
  | .typeOf type => .typeOf type
  | .refType e => .refType (g e)
  | .member target name typeArguments => .member (g target) name typeArguments
  | .call target arguments => .call (g target) (arguments.map g)
  | .binary op left right => .binary op (g left) (g right)
  | .unary op operand => .unary op (g operand)
  | .cast type operand => .cast type (g operand)
  | .creation type arguments => .creation type (arguments.map g)
  | .interpolated pieces => .interpolated (pieces.map (Piece.map g))
  | .conditional condition whenTrue whenFalse =>
    .conditional (g condition) (g whenTrue) (g whenFalse)
  | .parenthesized e => .parenthesized (g e)
  | .directed direction e => .directed direction (g e)
  | .named name e => .named name (g e)

/-- The parts with their roles, in source order. -/
def slots : Form ε → List (Role × ε)
  | .hole | .identifier _ | .literal _ | .typeReference _ | .typeOf _ => []
  | .refType e | .parenthesized e | .directed _ e | .named _ e | .cast _ e | .unary _ e =>
    [(.expression, e)]
  | .member target _ _ => [(.expression, target)]
  | .call target arguments => (.target, target) :: arguments.map (Role.argument, ·)
  | .creation _ arguments => arguments.map (Role.argument, ·)
  | .binary _ left right => [(.expression, left), (.expression, right)]
  | .interpolated pieces => (pieces.filterMap Piece.slot?).map (Role.expression, ·)
  | .conditional condition whenTrue whenFalse =>
    [(.condition, condition), (.expression, whenTrue), (.expression, whenFalse)]

def parts (form : Form ε) : List ε := form.slots.map (·.2)

def mapPieces (g : Nat → ε → δ) : Nat → List (Piece ε) → List (Piece δ)
  | _, [] => []
  | i, .text s :: rest => .text s :: mapPieces g i rest
  | i, .interpolation e format :: rest => .interpolation (g i e) format :: mapPieces g (i + 1) rest

/-- Replaces every part, knowing its index and role. -/
def mapSlots (g : Nat → Role → ε → δ) : Form ε → Form δ
  | .hole => .hole
  | .identifier name => .identifier name
  | .literal value => .literal value
  | .typeReference type => .typeReference type
  | .typeOf type => .typeOf type
  | .refType e => .refType (g 0 .expression e)
  | .member target name typeArguments => .member (g 0 .expression target) name typeArguments
  | .call target arguments =>
    .call (g 0 .target target) (arguments.mapIdx fun i e => g (i + 1) .argument e)
  | .binary op left right => .binary op (g 0 .expression left) (g 1 .expression right)
  | .unary op operand => .unary op (g 0 .expression operand)
  | .cast type operand => .cast type (g 0 .expression operand)
  | .creation type arguments => .creation type (arguments.mapIdx fun i e => g i .argument e)
  | .interpolated pieces => .interpolated (mapPieces (g · .expression) 0 pieces)
  | .conditional condition whenTrue whenFalse =>
    .conditional (g 0 .condition condition) (g 1 .expression whenTrue) (g 2 .expression whenFalse)
  | .parenthesized e => .parenthesized (g 0 .expression e)
  | .directed direction e => .directed direction (g 0 .expression e)
  | .named name e => .named name (g 0 .expression e)

def isHole : Form ε → Bool
  | .hole => true
  | _ => false

def isStringLiteral : Form ε → Bool
  | .literal (.string _) => true
  | _ => false

def isNamed : Form ε → Bool
  | .named _ _ => true
  | _ => false

def isConditional : Form ε → Bool
  | .conditional _ _ _ => true
  | _ => false

/-- The arguments of a call or an object creation. -/
def arguments : Form ε → List ε
  | .call _ arguments | .creation _ arguments => arguments
  | _ => []

/-- The same form without its arguments. -/
def dropArguments : Form ε → Form ε
  | .call target _ => .call target []
  | .creation type _ => .creation type []
  | form => form

/-- The type that the form of an expression alone decides. -/
def type? : Form ε → Option ResolvedType
  | .literal (.string _) | .interpolated _ => some (.builtin .string)
  | .literal (.bool _) => some (.builtin .boolean)
  | .literal (.char _) => some (.builtin .char)
  | .literal (.decimal _) => some (.builtin .decimal)
  | _ => none

theorem slot?_pieces_map (g : ε → δ) (pieces : List (Piece ε)) :
    (pieces.map (Piece.map g)).filterMap Piece.slot? = (pieces.filterMap Piece.slot?).map g := by
  induction pieces with
  | nil => rfl
  | cons piece rest ih =>
    cases piece <;> simp only [List.map_cons, List.filterMap_cons, Piece.map, Piece.slot?, ih]

theorem slots_map (g : ε → δ) (form : Form ε) :
    (form.map g).slots = form.slots.map fun slot => (slot.1, g slot.2) := by
  cases form with
  | interpolated pieces => simp only [map, slots, slot?_pieces_map, List.map_map, Function.comp_def]
  | _ => simp [map, slots, Function.comp_def]

theorem mapPieces_map (g : ε → δ) (k : Nat → δ → γ) (i : Nat) (pieces : List (Piece ε)) :
    mapPieces k i (pieces.map (Piece.map g)) = mapPieces (fun i e => k i (g e)) i pieces := by
  induction pieces generalizing i with
  | nil => rfl
  | cons piece rest ih => cases piece <;> simp [Piece.map, mapPieces, ih]

theorem mapSlots_map (g : ε → δ) (k : Nat → Role → δ → γ) (form : Form ε) :
    (form.map g).mapSlots k = form.mapSlots fun i role e => k i role (g e) := by
  cases form <;> simp [map, mapSlots, mapPieces_map, List.mapIdx_eq_zipIdx_map, List.zipIdx_map]

theorem slots_mapPieces (g : Nat → ε → δ) (i : Nat) (pieces : List (Piece ε)) :
    (mapPieces g i pieces).filterMap Piece.slot? =
      (pieces.filterMap Piece.slot?).mapIdx fun k e => g (i + k) e := by
  induction pieces generalizing i with
  | nil => rfl
  | cons piece rest ih =>
    cases piece with
    | text s => simp only [mapPieces, List.filterMap_cons, Piece.slot?, ih]
    | interpolation e format =>
      simp only [mapPieces, List.filterMap_cons, Piece.slot?, ih, List.mapIdx_cons, Nat.add_zero]
      congr 2
      funext k e
      congr 1
      omega

/-- Every part is replaced where it stands. -/
theorem slots_mapSlots (g : Nat → Role → ε → δ) (form : Form ε) :
    (form.mapSlots g).slots = form.slots.mapIdx fun i slot => (slot.1, g i slot.1 slot.2) := by
  cases form with
  | interpolated pieces =>
    simp only [mapSlots, slots, slots_mapPieces, Nat.zero_add, List.mapIdx_eq_zipIdx_map,
      List.map_map, List.zipIdx_map, Function.comp_def]
    rfl
  | call target arguments =>
    simp only [mapSlots, slots, List.mapIdx_cons]
    simp [List.mapIdx_eq_zipIdx_map, List.zipIdx_map, Function.comp_def]
  | creation type arguments =>
    simp [mapSlots, slots, List.mapIdx_eq_zipIdx_map, List.zipIdx_map, Function.comp_def]
  | _ => simp [mapSlots, slots]

theorem parts_map (g : ε → δ) (form : Form ε) : (form.map g).parts = form.parts.map g := by
  simp [parts, slots_map, Function.comp_def]

end Form

structure Expr where
  form : Form Expr
  annotations : Annotations

namespace Expr

section Fold

variable (read : Form α → Annotations → α)

mutual

/-- Reads an expression from what its parts read as. -/
def fold : Expr → α
  | ⟨form, annotations⟩ => read (foldForm form) annotations

def foldForm : Form Expr → Form α
  | .hole => .hole
  | .identifier name => .identifier name
  | .literal value => .literal value
  | .typeReference type => .typeReference type
  | .typeOf type => .typeOf type
  | .refType e => .refType (fold e)
  | .member target name typeArguments => .member (fold target) name typeArguments
  | .call target arguments => .call (fold target) (foldList arguments)
  | .binary op left right => .binary op (fold left) (fold right)
  | .unary op operand => .unary op (fold operand)
  | .cast type operand => .cast type (fold operand)
  | .creation type arguments => .creation type (foldList arguments)
  | .interpolated pieces => .interpolated (foldPieces pieces)
  | .conditional condition whenTrue whenFalse =>
    .conditional (fold condition) (fold whenTrue) (fold whenFalse)
  | .parenthesized e => .parenthesized (fold e)
  | .directed direction e => .directed direction (fold e)
  | .named name e => .named name (fold e)

def foldList : List Expr → List α
  | [] => []
  | e :: rest => fold e :: foldList rest

def foldPieces : List (Piece Expr) → List (Piece α)
  | [] => []
  | piece :: rest => foldPiece piece :: foldPieces rest

def foldPiece : Piece Expr → Piece α
  | .text s => .text s
  | .interpolation e format => .interpolation (fold e) format

end

theorem foldList_eq_map (es : List Expr) : foldList read es = es.map (fold read) := by
  induction es with
  | nil => rfl
  | cons e rest ih => simp [foldList, ih]

theorem foldPieces_eq_map (pieces : List (Piece Expr)) :
    foldPieces read pieces = pieces.map (Piece.map (fold read)) := by
  induction pieces with
  | nil => rfl
  | cons piece rest ih => cases piece <;> simp [foldPieces, foldPiece, Piece.map, ih]

theorem foldForm_eq_map (form : Form Expr) : foldForm read form = form.map (fold read) := by
  cases form <;> simp [foldForm, Form.map, foldList_eq_map, foldPieces_eq_map]

/-- The equation that determines a fold. -/
theorem fold_mk (form : Form Expr) (annotations : Annotations) :
    fold read ⟨form, annotations⟩ = read (form.map (fold read)) annotations := by
  rw [fold, foldForm_eq_map]

end Fold

/-- An expression without annotations. -/
def ofForm (form : Form Expr) : Expr := ⟨form, []⟩

def hole : Expr := .ofForm .hole

def parts (e : Expr) : List Expr := e.form.parts

theorem parts_call (target : Expr) (arguments : List Expr) (annotations : Annotations) :
    parts ⟨.call target arguments, annotations⟩ = target :: arguments := by
  simp [parts, Form.parts, Form.slots, Function.comp_def]

theorem sizeOf_lt_of_mem_parts {e part : Expr} (h : part ∈ e.parts) : sizeOf part < sizeOf e := by
  obtain ⟨form, annotations⟩ := e
  have key : sizeOf part < sizeOf form := by
    cases form <;> simp [parts, Form.parts, Form.slots] at h <;> simp only [Form.call.sizeOf_spec,
      Form.creation.sizeOf_spec, Form.binary.sizeOf_spec, Form.unary.sizeOf_spec,
      Form.cast.sizeOf_spec, Form.member.sizeOf_spec, Form.refType.sizeOf_spec,
      Form.conditional.sizeOf_spec, Form.parenthesized.sizeOf_spec, Form.directed.sizeOf_spec,
      Form.named.sizeOf_spec, Form.interpolated.sizeOf_spec]
    case call target arguments =>
      rcases h with rfl | h
      · omega
      · have := List.sizeOf_lt_of_mem h
        omega
    case creation type arguments =>
      have := List.sizeOf_lt_of_mem h
      omega
    case binary op left right => rcases h with rfl | rfl <;> omega
    case conditional => rcases h with rfl | rfl | rfl <;> omega
    case interpolated pieces =>
      obtain ⟨piece, hpiece, hslot⟩ := h
      have hlt := List.sizeOf_lt_of_mem hpiece
      cases piece with
      | text s => simp [Piece.slot?] at hslot
      | interpolation e format =>
        simp [Piece.slot?] at hslot
        subst hslot
        simp only [Piece.interpolation.sizeOf_spec] at hlt
        omega
    all_goals (subst h; omega)
  simp only [Expr.mk.sizeOf_spec]
  omega

/-- To prove something of every expression, prove it from its parts. -/
theorem induction_on_parts {P : Expr → Prop} (step : ∀ e, (∀ part ∈ e.parts, P part) → P e)
    (e : Expr) : P e :=
  step e fun part _ => induction_on_parts step part
termination_by sizeOf e
decreasing_by exact sizeOf_lt_of_mem_parts ‹_›

/-- The sum of the numbers. -/
def total : List Nat → Nat
  | [] => 0
  | n :: rest => n + total rest

def nodeCount : Expr → Nat := fold fun form _ => 1 + total form.parts

def isHole (e : Expr) : Bool := e.form.isHole

def isStringLiteral (e : Expr) : Bool := e.form.isStringLiteral

def isNamed (e : Expr) : Bool := e.form.isNamed

def arguments (e : Expr) : List Expr := e.form.arguments

/-- Whether the condition holds of the form of this or any inner expression. -/
def anyForm (p : ∀ {ε : Type}, Form ε → Bool) : Expr → Bool :=
  fold fun form _ => p form || form.parts.any id

def containsStringLiteral (e : Expr) : Bool := e.anyForm Form.isStringLiteral

/-- Whether no slot anywhere inside is a hole. -/
def isFullyAttached (e : Expr) : Bool := !e.anyForm Form.isHole

/-- The type known without evaluation: the annotated one, else that of the form. -/
def staticType? (e : Expr) : Option ResolvedType :=
  (Annotations.resolvedType? e.annotations).or e.form.type?

def method? (e : Expr) : Option Method := Annotations.method? e.annotations

def field? (e : Expr) : Option Field := Annotations.field? e.annotations

theorem nodeCount_mk (form : Form Expr) (annotations : Annotations) :
    nodeCount ⟨form, annotations⟩ = 1 + total (form.parts.map nodeCount) := by
  simp only [nodeCount, fold_mk, Form.parts_map]

instance : Inhabited Expr := ⟨hole⟩

end Expr

end OperatorRecovery
