import OperatorRecovery.Proofs.SerializedTypes
import OperatorRecovery.Proofs.Nodes
import OperatorRecovery.TreeJson

/-!
Reading serialized trees back. Expressions and statements are read where there is room for
the depth of their JSON, as types and symbols are, provided that their floating-point
literals are finite; a literal that is not finite leaves no number to read. They can be
written as text where the literals read back from theirs.
-/

namespace OperatorRecovery

open Json

namespace Literal

def isFinite : Literal → Bool
  | .float x => x.isFinite
  | _ => true

theorem ofJson?_toJson {literal : Literal} (finite : literal.isFinite = true) (room : Nat) :
    ofJson? room literal.toJson = within room literal.toJson.depth literal := by
  cases literal with
  | null => simp [ofJson?, toJson, depth]
  | float x =>
    have hfinite : x.isFinite = true := finite
    rw [toJson, if_pos hfinite]
    apply within_tag
    · rfl
    · intro room
      rw [ofJson?]
      simp [float?, depth]
  | bool b =>
    apply within_tag
    · rfl
    · intro room
      rw [ofJson?]
      simp [bool?, depth]
  | int n =>
    apply within_tag
    · rfl
    · intro room
      rw [ofJson?, int64?_ofInt]
      simp [depth]
  | decimal n =>
    apply within_tag
    · rfl
    · intro room
      rw [ofJson?, int64?_ofInt]
      simp [depth]
  | char c =>
    apply within_tag
    · rfl
    · intro room
      rw [ofJson?]
      simp [char?, depth]
  | string s =>
    apply within_tag
    · rfl
    · intro room
      rw [ofJson?]
      simp [string?, depth]

/-- Whether the number of a literal, if it has one, survives as text. -/
def ReadsBack : Literal → Prop
  | .float x => FloatText.ReadsBack x
  | _ => True

theorem ReadsBack.isFinite {literal : Literal} (h : literal.ReadsBack) :
    literal.isFinite = true := by
  cases literal with
  | float x => exact h.1
  | _ => rfl

theorem isWritable_toJson {literal : Literal} (h : literal.ReadsBack) :
    literal.toJson.IsWritable := by
  cases literal with
  | float x =>
    have hfinite : x.isFinite = true := h.1
    rw [toJson, if_pos hfinite]
    exact isWritable_tag (.float h) "float"
  | null => exact .string "null"
  | _ => simp [toJson]

end Literal

namespace Form

def isFinite : Form ε → Bool
  | .literal value => value.isFinite
  | _ => true

def ReadsBack : Form ε → Prop
  | .literal value => value.ReadsBack
  | _ => True

theorem ReadsBack.isFinite {form : Form ε} (h : form.ReadsBack) : form.isFinite = true := by
  cases form with
  | literal value => exact Literal.ReadsBack.isFinite h
  | _ => rfl

end Form

namespace Expr

theorem listOfJson?_eq_items? (source : Source) (room : Nat) (j : Json) :
    listOfJson? source room j = items? (ofJson? source) room j := by
  cases room <;> cases j <;> rfl

theorem piecesOfJson?_eq_items? (source : Source) (room : Nat) (j : Json) :
    piecesOfJson? source room j = items? (pieceOfJson? source) room j := by
  cases room <;> cases j <;> rfl

/-- What a source makes of an expression again. -/
def RoundTrips (source : Source) (e : Expr) : Prop :=
  ∀ room, ofJson? source room e.toJson = within room e.toJson.depth e

section Forms

variable {source : Source}

theorem listOfJson?_map_toJson {es : List Expr} (h : ∀ e ∈ es, e.RoundTrips source) (room : Nat) :
    listOfJson? source room (.array (es.map toJson)) =
      within room (depthOfItems (es.map toJson) + 1) es := by
  rw [listOfJson?_eq_items?]
  exact items?_within fun room e he => h e he room

theorem formOfJson?_member {target : Expr} (h : target.RoundTrips source) (name : String)
    (typeArguments : List TypeSyntax) (room : Nat) :
    formOfJson? source room ((Form.member target name typeArguments).map toJson).toJson =
      within room ((Form.member target name typeArguments).map toJson).toJson.depth
        (.member target name typeArguments) := by
  apply within_record
  · rfl
  · rfl
  · intro room
    rw [formOfJson?]
    case heq =>
      exact variant?_listed source (by rfl) (by decide) (typeArguments.map TypeSyntax.toJson)
    rw [h, TypeSyntax.orElse_listOfJson? (TypeSyntax.ofJson?_of_mem source typeArguments)]
    simp [string?, depthOfFields, depth]

theorem formOfJson?_call {target : Expr} {arguments : List Expr} (htarget : target.RoundTrips source)
    (harguments : ∀ e ∈ arguments, e.RoundTrips source) (room : Nat) :
    formOfJson? source room ((Form.call target arguments).map toJson).toJson =
      within room ((Form.call target arguments).map toJson).toJson.depth
        (.call target arguments) := by
  apply within_record
  · rfl
  · rfl
  · intro room
    rw [formOfJson?]
    case heq => exact variant?_named source (by rfl) (by decide)
    rw [htarget, listOfJson?_map_toJson harguments]
    simp [depthOfFields, depth]

theorem formOfJson?_binary {left right : Expr} (hleft : left.RoundTrips source)
    (hright : right.RoundTrips source) (op : BinaryOperator) (room : Nat) :
    formOfJson? source room ((Form.binary op left right).map toJson).toJson =
      within room ((Form.binary op left right).map toJson).toJson.depth (.binary op left right) := by
  apply within_record
  · rfl
  · rfl
  · intro room
    rw [formOfJson?]
    case heq => exact variant?_named source (by rfl) (by decide)
    rw [op.ofJson?_toJson, hleft, hright]
    simp [depthOfFields, depth, BinaryOperator.toJson]

theorem formOfJson?_unary {operand : Expr} (h : operand.RoundTrips source) (op : UnaryOperator)
    (room : Nat) :
    formOfJson? source room ((Form.unary op operand).map toJson).toJson =
      within room ((Form.unary op operand).map toJson).toJson.depth (.unary op operand) := by
  apply within_record
  · rfl
  · rfl
  · intro room
    rw [formOfJson?]
    case heq => exact variant?_named source (by rfl) (by decide)
    rw [op.ofJson?_toJson, h]
    simp [depthOfFields, depth, UnaryOperator.toJson]

theorem formOfJson?_cast {operand : Expr} (h : operand.RoundTrips source) (type : TypeSyntax)
    (room : Nat) :
    formOfJson? source room ((Form.cast type operand).map toJson).toJson =
      within room ((Form.cast type operand).map toJson).toJson.depth (.cast type operand) := by
  apply within_record
  · rfl
  · rfl
  · intro room
    rw [formOfJson?]
    case heq => exact variant?_named source (by rfl) (by decide)
    rw [type.ofJson?_toJson, h]
    simp [depthOfFields]

theorem formOfJson?_creation {arguments : List Expr} (h : ∀ e ∈ arguments, e.RoundTrips source)
    (type : TypeSyntax) (room : Nat) :
    formOfJson? source room ((Form.creation type arguments).map toJson).toJson =
      within room ((Form.creation type arguments).map toJson).toJson.depth
        (.creation type arguments) := by
  apply within_record
  · rfl
  · rfl
  · intro room
    rw [formOfJson?]
    case heq => exact variant?_named source (by rfl) (by decide)
    rw [type.ofJson?_toJson, listOfJson?_map_toJson h]
    simp [depthOfFields, depth]

theorem formOfJson?_conditional {condition whenTrue whenFalse : Expr}
    (hcondition : condition.RoundTrips source) (hwhenTrue : whenTrue.RoundTrips source)
    (hwhenFalse : whenFalse.RoundTrips source) (room : Nat) :
    formOfJson? source room ((Form.conditional condition whenTrue whenFalse).map toJson).toJson =
      within room ((Form.conditional condition whenTrue whenFalse).map toJson).toJson.depth
        (.conditional condition whenTrue whenFalse) := by
  apply within_record
  · rfl
  · rfl
  · intro room
    rw [formOfJson?]
    case heq => exact variant?_named source (by rfl) (by decide)
    rw [hcondition, hwhenTrue, hwhenFalse]
    simp [depthOfFields]

theorem formOfJson?_directed {e : Expr} (h : e.RoundTrips source) (direction : Direction)
    (room : Nat) :
    formOfJson? source room ((Form.directed direction e).map toJson).toJson =
      within room ((Form.directed direction e).map toJson).toJson.depth (.directed direction e) := by
  apply within_record
  · rfl
  · rfl
  · intro room
    rw [formOfJson?]
    case heq => exact variant?_named source (by rfl) (by decide)
    rw [direction.ofJson?_toJson, h]
    simp [depthOfFields, depth, Direction.toJson]

theorem formOfJson?_named {e : Expr} (h : e.RoundTrips source) (name : String) (room : Nat) :
    formOfJson? source room ((Form.named name e).map toJson).toJson =
      within room ((Form.named name e).map toJson).toJson.depth (.named name e) := by
  apply within_record
  · rfl
  · rfl
  · intro room
    rw [formOfJson?]
    case heq => exact variant?_named source (by rfl) (by decide)
    rw [h]
    simp [string?, depthOfFields, depth]

/-- An absent format is left out. -/
theorem pieceOfJson?_interpolation {e : Expr} (h : e.RoundTrips source) (format : Option String)
    (room : Nat) :
    pieceOfJson? source room (Piece.interpolation e format).toValue =
      within room (Piece.interpolation e format).toValue.depth (.interpolation e format) := by
  cases format with
  | none =>
    have hvariant : variant? source ["expr", "format"] (.object [("expr", e.toJson)]) =
        some [some e.toJson, none] := by
      simp [variant?_object, Json.field?, fieldsNamed]
    apply within_record
    · rfl
    · rfl
    · intro room
      rw [Option.toList_none, List.map_nil, pieceOfJson?]
      case heq => exact hvariant
      rw [h]
      simp [orElse, depthOfFields]
  | some spec =>
    apply within_record
    · rfl
    · rfl
    · intro room
      rw [Option.toList_some, List.map_singleton, pieceOfJson?]
      case heq => exact variant?_named source (by rfl) (by decide)
      rw [h]
      simp [orElse, orNull, string?, depthOfFields, depth]

theorem pieceOfJson?_toValue {piece : Piece Expr} (h : ∀ e ∈ piece.slot?, e.RoundTrips source)
    (room : Nat) :
    pieceOfJson? source room piece.toValue = within room piece.toValue.depth piece := by
  cases piece with
  | text s =>
    apply within_tag
    · rfl
    · intro room
      rw [pieceOfJson?]
      simp [string?, depth]
  | interpolation e format => exact pieceOfJson?_interpolation (h e rfl) format room

theorem formOfJson?_interpolated {pieces : List (Piece Expr)}
    (h : ∀ e ∈ pieces.filterMap Piece.slot?, e.RoundTrips source) (room : Nat) :
    formOfJson? source room ((Form.interpolated pieces).map toJson).toJson =
      within room ((Form.interpolated pieces).map toJson).toJson.depth (.interpolated pieces) := by
  have hpieces : ∀ piece ∈ pieces, ∀ e ∈ piece.slot?, e.RoundTrips source := fun piece hpiece e he =>
    h e (List.mem_filterMap.mpr ⟨piece, hpiece, he⟩)
  have hmap : (pieces.map (Piece.map toJson)).map Piece.toJson = pieces.map Piece.toValue := by
    rw [List.map_map]
    rfl
  rw [Form.map, Form.toJson, hmap]
  apply within_tag
  · rfl
  · intro room
    rw [formOfJson?, piecesOfJson?_eq_items?, items?_within fun room piece hpiece =>
      pieceOfJson?_toValue (hpieces piece hpiece) room, map_within, depth]

/-- A form is read when its parts are. -/
theorem formOfJson?_toJson {form : Form Expr} (finite : form.isFinite = true)
    (h : ∀ part ∈ form.parts, part.RoundTrips source) (room : Nat) :
    formOfJson? source room (form.map toJson).toJson =
      within room (form.map toJson).toJson.depth form := by
  cases form with
  | hole =>
    rw [Form.map, formOfJson?_hole]
    simp [Form.toJson, depth]
  | identifier name =>
    apply within_tag
    · rfl
    · intro room
      rw [formOfJson?]
      simp [string?, depth]
  | literal value =>
    apply within_tag
    · rfl
    · intro room
      rw [formOfJson?, Literal.ofJson?_toJson finite, map_within]
  | typeReference type =>
    apply within_tag
    · rfl
    · intro room
      rw [formOfJson?, type.ofJson?_toJson, map_within]
  | typeOf type =>
    apply within_tag
    · rfl
    · intro room
      rw [formOfJson?, type.ofJson?_toJson, map_within]
  | refType e =>
    apply within_tag
    · rfl
    · intro room
      rw [formOfJson?, h e (List.mem_singleton.mpr rfl), map_within]
  | parenthesized e =>
    apply within_tag
    · rfl
    · intro room
      rw [formOfJson?, h e (List.mem_singleton.mpr rfl), map_within]
  | member target name typeArguments =>
    exact formOfJson?_member (h target (List.mem_singleton.mpr rfl)) name typeArguments room
  | call target arguments =>
    exact formOfJson?_call (h target (by simp [Form.parts, Form.slots]))
      (fun e he => h e (by simp [Form.parts, Form.slots, he])) room
  | binary op left right =>
    exact formOfJson?_binary (h left (by simp [Form.parts, Form.slots]))
      (h right (by simp [Form.parts, Form.slots])) op room
  | unary op operand => exact formOfJson?_unary (h operand (List.mem_singleton.mpr rfl)) op room
  | cast type operand => exact formOfJson?_cast (h operand (List.mem_singleton.mpr rfl)) type room
  | creation type arguments =>
    exact formOfJson?_creation (fun e he => h e (by simp [Form.parts, Form.slots, he])) type room
  | interpolated pieces =>
    refine formOfJson?_interpolated (fun e he => h e ?_) room
    simpa [Form.parts, Form.slots] using he
  | conditional condition whenTrue whenFalse =>
    exact formOfJson?_conditional (h condition (by simp [Form.parts, Form.slots]))
      (h whenTrue (by simp [Form.parts, Form.slots]))
      (h whenFalse (by simp [Form.parts, Form.slots])) room
  | directed direction e =>
    exact formOfJson?_directed (h e (List.mem_singleton.mpr rfl)) direction room
  | named name e => exact formOfJson?_named (h e (List.mem_singleton.mpr rfl)) name room

end Forms

/-- An expression is read where there is room for its depth. -/
theorem ofJson?_toJson (source : Source) {role : Role} {e : Expr}
    (finite : Every (fun _ e => e.form.isFinite = true) role e) : e.RoundTrips source := by
  induction e using induction_on_parts generalizing role with
  | step e ih =>
    have hparts : ∀ part ∈ e.form.parts, part.RoundTrips source := by
      intro part hpart
      obtain ⟨slot, hslot, rfl⟩ := List.mem_map.mp hpart
      exact ih slot.2 hpart (finite.slots slot hslot)
    have hform := finite.self
    obtain ⟨form, annotations⟩ := e
    intro room
    rw [toJson_mk, ← List.singleton_append]
    apply within_object
    · rfl
    · intro room
      have hlisted : orElse [] (Annotations.ofJson? source room)
          (listed (annotations.map Annotation.toJson)) = _ :=
        orElse_listed_within "annotations" (annotations.ofJson?_toJson source room)
      rw [ofJson?, record?_listed (by rfl) (by decide)]
      simp only [List.map_cons, List.map_nil, List.cons_append, List.nil_append, hlisted]
      rw [formOfJson?_toJson hform hparts]
      simp [depthOfFields]

theorem isWritable_form {form : Form Expr} (reads : form.ReadsBack)
    (h : ∀ part ∈ form.parts, part.toJson.IsWritable) :
    ((form.map toJson).toJson).IsWritable := by
  cases form with
  | hole => exact .string "null"
  | literal value => exact isWritable_tag (Literal.isWritable_toJson reads) "primitive"
  | typeReference type => exact isWritable_tag type.isWritable_toJson "type_reference"
  | typeOf type => exact isWritable_tag type.isWritable_toJson "type_of"
  | member target name typeArguments =>
    have htarget := h target (List.mem_singleton.mpr rfl)
    refine isWritable_tag (.object (List.forall_mem_append.mpr ⟨?_, isWritable_unlessEmpty ?_⟩))
      "member_access"
    · simpa using htarget
    · exact List.forall_mem_map.mpr fun type _ => type.isWritable_toJson
  | interpolated pieces =>
    refine isWritable_tag (.array (List.forall_mem_map.mpr ?_)) "interpolated_string"
    intro mapped hmapped
    obtain ⟨piece, hpiece, rfl⟩ := List.mem_map.mp hmapped
    cases piece with
    | text s => exact isWritable_tag (.string s) "text"
    | interpolation e format =>
      have hslot : e ∈ pieces.filterMap Piece.slot? :=
        List.mem_filterMap.mpr ⟨.interpolation e format, hpiece, rfl⟩
      have he : e.toJson.IsWritable := h e (by simpa [Form.parts, Form.slots] using hslot)
      refine isWritable_tag (.object (List.forall_mem_cons.mpr ⟨he, ?_⟩)) "interpolation"
      exact List.forall_mem_map.mpr fun spec _ => .string spec
  | _ =>
    simp [Form.parts, Form.slots] at h
    simp +contextual [Form.map, Form.toJson, BinaryOperator.toJson, UnaryOperator.toJson,
      Direction.toJson, TypeSyntax.isWritable_toJson, h]

/-- An expression can be written when its literals can. -/
theorem isWritable_toJson {role : Role} {e : Expr}
    (reads : Every (fun _ e => e.form.ReadsBack) role e) : e.toJson.IsWritable := by
  induction e using induction_on_parts generalizing role with
  | step e ih =>
    have hparts : ∀ part ∈ e.form.parts, part.toJson.IsWritable := by
      intro part hpart
      obtain ⟨slot, hslot, rfl⟩ := List.mem_map.mp hpart
      exact ih slot.2 hpart (reads.slots slot hslot)
    have hform := isWritable_form reads.self hparts
    obtain ⟨form, annotations⟩ := e
    rw [toJson_mk]
    refine .object (List.forall_mem_cons.mpr ⟨hform, isWritable_unlessEmpty ?_⟩)
    exact List.forall_mem_map.mpr fun a _ => a.isWritable_toJson

end Expr

namespace Stmt

theorem bodyToJson_eq_map (body : List Stmt) : bodyToJson body = body.map toJson := by
  induction body with
  | nil => rfl
  | cons s rest ih => rw [bodyToJson, ih, List.map_cons]

theorem bodyOfJson?_eq_items? (source : Source) (room : Nat) (j : Json) :
    bodyOfJson? source room j = items? (ofJson? source) room j := by
  cases room <;> cases j <;> rfl

/-- What a source makes of a statement again. -/
def RoundTrips (source : Source) (s : Stmt) : Prop :=
  ∀ room, ofJson? source room s.toJson = within room s.toJson.depth s

section Forms

variable {source : Source}

theorem bodyOfJson?_bodyToJson {body : List Stmt} (h : ∀ s ∈ body, s.RoundTrips source) (room : Nat) :
    bodyOfJson? source room (.array (bodyToJson body)) =
      within room (depthOfItems (bodyToJson body) + 1) body := by
  rw [bodyOfJson?_eq_items?, bodyToJson_eq_map]
  exact items?_within fun room s hs => h s hs room

/-- No expression is serialized as null. -/
theorem orNull_toJson (read : Json → Option α) (e : Expr) :
    orNull read e.toJson = (read e.toJson).map some := by
  obtain ⟨form, annotations⟩ := e
  rw [Expr.toJson_mk]
  rfl

theorem roundTrips_declaration {value : Option Expr} (h : ∀ e ∈ value, e.RoundTrips source)
    (type : TypeSyntax) (name : String) : (declaration type name value).RoundTrips source := by
  intro room
  cases value with
  | none =>
    have hvariant : variant? source ["ty", "name", "init"] (.object
        [("ty", type.toJson), ("name", .string name)]) =
        some [some type.toJson, some (.string name), none] := by
      simp [variant?_object, field?, fieldsNamed]
    rw [toJson, Option.toList_none, List.map_nil, List.append_nil]
    apply within_record
    · rfl
    · rfl
    · intro room
      rw [ofJson?]
      case heq => exact hvariant
      rw [type.ofJson?_toJson]
      simp [string?, orElse, depthOfFields, depth]
  | some value =>
    rw [toJson, Option.toList_some, List.map_singleton]
    apply within_record
    · rfl
    · rfl
    · intro room
      rw [ofJson?]
      case heq => exact variant?_named source (by rfl) (by decide)
      rw [type.ofJson?_toJson]
      simp [string?, orElse, orNull_toJson, h value rfl room, depthOfFields, depth]

theorem roundTrips_ifElse {condition : Expr} {thenBody : List Stmt} {elseBody : Option (List Stmt)}
    (hcondition : condition.RoundTrips source) (hthen : ∀ s ∈ thenBody, s.RoundTrips source)
    (helse : ∀ body ∈ elseBody, ∀ s ∈ body, s.RoundTrips source) :
    (ifElse condition thenBody elseBody).RoundTrips source := by
  intro room
  cases elseBody with
  | none =>
    have hvariant : variant? source ["cond", "then_body", "else_body"] (.object
        [("cond", condition.toJson), ("then_body", .array (bodyToJson thenBody))]) =
        some [some condition.toJson, some (.array (bodyToJson thenBody)), none] := by
      simp [variant?_object, field?, fieldsNamed]
    rw [toJson]
    apply within_record
    · rfl
    · rfl
    · intro room
      rw [ofJson?]
      case heq => exact hvariant
      rw [hcondition, bodyOfJson?_bodyToJson hthen]
      simp [orElse, depthOfFields, depth]
  | some elseBody =>
    rw [toJson]
    apply within_record
    · rfl
    · rfl
    · intro room
      rw [ofJson?]
      case heq => exact variant?_named source (by rfl) (by decide)
      rw [hcondition, bodyOfJson?_bodyToJson hthen]
      simp [orElse, orNull, bodyOfJson?_bodyToJson (helse elseBody rfl), depthOfFields, depth]

theorem roundTrips_while {condition : Expr} {body : List Stmt} (hcondition : condition.RoundTrips source)
    (hbody : ∀ s ∈ body, s.RoundTrips source) : (Stmt.while condition body).RoundTrips source := by
  intro room
  rw [toJson]
  apply within_record
  · rfl
  · rfl
  · intro room
    rw [ofJson?]
    case heq => exact variant?_named source (by rfl) (by decide)
    rw [hcondition, bodyOfJson?_bodyToJson hbody]
    simp [depthOfFields, depth]

theorem roundTrips_return {value : Option Expr} (h : ∀ e ∈ value, e.RoundTrips source) :
    (Stmt.return value).RoundTrips source := by
  intro room
  cases value with
  | none =>
    rw [toJson]
    apply within_tag
    · rfl
    · intro room
      rw [ofJson?]
      simp [orNull, depth]
  | some value =>
    rw [toJson]
    apply within_tag
    · obtain ⟨form, annotations⟩ := value
      rfl
    · intro room
      rw [ofJson?, orNull_toJson, h value rfl, map_within, map_within]

end Forms

section Trees

variable {source : Source}

mutual

/-- A statement is read where there is room for its depth. -/
theorem ofJson?_toJson (source : Source) (s : Stmt)
    (h : ∀ slot ∈ s.allExprs, slot.2.RoundTrips source) : s.RoundTrips source := by
  cases s with
  | expr e =>
    intro room
    rw [toJson]
    apply within_tag
    · rfl
    · intro room
      rw [ofJson?, h (.expression, e) (List.mem_singleton.mpr rfl), map_within]
  | declaration type name value =>
    exact roundTrips_declaration (fun e he => h (.expression, e) (by simpa [allExprs] using he)) type name
  | ifElse condition thenBody elseBody =>
    cases elseBody with
    | none =>
      rw [allExprs, List.forall_mem_cons] at h
      exact roundTrips_ifElse h.1 (ofJson?_of_mem source thenBody h.2) nofun
    | some elseBody =>
      rw [allExprs, List.forall_mem_cons, List.forall_mem_append] at h
      refine roundTrips_ifElse h.1 (ofJson?_of_mem source thenBody h.2.1) ?_
      intro body hbody
      cases hbody
      exact ofJson?_of_mem source elseBody h.2.2
  | «while» condition body =>
    rw [allExprs, List.forall_mem_cons] at h
    exact roundTrips_while h.1 (ofJson?_of_mem source body h.2)
  | «return» value =>
    exact roundTrips_return fun e he => h (.expression, e) (by simpa [allExprs] using he)
  | block body =>
    intro room
    rw [toJson]
    apply within_tag
    · rfl
    · intro room
      rw [ofJson?, bodyOfJson?_bodyToJson (ofJson?_of_mem source body h), map_within, depth]

theorem ofJson?_of_mem (source : Source) (body : List Stmt)
    (h : ∀ slot ∈ allExprsList body, slot.2.RoundTrips source) : ∀ s ∈ body, s.RoundTrips source := by
  cases body with
  | nil => exact nofun
  | cons first rest =>
    rw [allExprsList, List.forall_mem_append] at h
    exact List.forall_mem_cons.mpr
      ⟨ofJson?_toJson source first h.1, ofJson?_of_mem source rest h.2⟩

end

mutual

/-- A statement can be written when its expressions can. -/
theorem isWritable_toJson (s : Stmt) (h : ∀ slot ∈ s.allExprs, slot.2.toJson.IsWritable) :
    s.toJson.IsWritable := by
  cases s with
  | expr e => exact isWritable_tag (h (.expression, e) (List.mem_singleton.mpr rfl)) "expr"
  | declaration type name value =>
    rw [toJson]
    refine isWritable_tag (.object (List.forall_mem_append.mpr ⟨?_, ?_⟩)) "var_decl"
    · simp [type.isWritable_toJson]
    · refine List.forall_mem_map.mpr fun e he => h (.expression, e) ?_
      simpa [allExprs] using he
  | ifElse condition thenBody elseBody =>
    cases elseBody with
    | none =>
      rw [allExprs, List.forall_mem_cons] at h
      exact isWritable_tag (.object (List.forall_mem_cons.mpr
        ⟨h.1, List.forall_mem_singleton.mpr (.array (isWritable_body thenBody h.2))⟩)) "if"
    | some elseBody =>
      rw [allExprs, List.forall_mem_cons, List.forall_mem_append] at h
      exact isWritable_tag (.object (List.forall_mem_cons.mpr ⟨h.1, List.forall_mem_cons.mpr
        ⟨.array (isWritable_body thenBody h.2.1),
          List.forall_mem_singleton.mpr (.array (isWritable_body elseBody h.2.2))⟩⟩)) "if"
  | «while» condition body =>
    rw [allExprs, List.forall_mem_cons] at h
    exact isWritable_tag (.object (List.forall_mem_cons.mpr
      ⟨h.1, List.forall_mem_singleton.mpr (.array (isWritable_body body h.2))⟩)) "while"
  | «return» value =>
    cases value with
    | none => simp [toJson]
    | some value =>
      exact isWritable_tag (h (.expression, value) (List.mem_singleton.mpr rfl)) "return"
  | block body => exact isWritable_tag (.array (isWritable_body body h)) "block"

theorem isWritable_body (body : List Stmt)
    (h : ∀ slot ∈ allExprsList body, slot.2.toJson.IsWritable) :
    ∀ j ∈ bodyToJson body, j.IsWritable := by
  cases body with
  | nil => exact nofun
  | cons first rest =>
    rw [allExprsList, List.forall_mem_append] at h
    rw [bodyToJson]
    exact List.forall_mem_cons.mpr ⟨isWritable_toJson first h.1, isWritable_body rest h.2⟩

end

end Trees

end Stmt

end OperatorRecovery
