import OperatorRecovery.Serialized
import OperatorRecovery.TypeSyntax

/-!
The serialized form of resolved types and of type syntax. Empty argument lists
are left out.
-/

namespace OperatorRecovery

open Json

namespace TypeParameter

def toJson (p : TypeParameter) : Json :=
  .object [("name", .string p.name),
    ("has_default_constructor_constraint", .bool p.hasDefaultConstructor)]

def ofJson? : Nat → Json → Option TypeParameter
  | _ + 1, j =>
    match record? ["name", "has_default_constructor_constraint"] j with
    | some [some name, constraint] =>
      return ⟨← string? name, ← orElse false bool? constraint⟩
    | _ => none
  | 0, _ => none

end TypeParameter

namespace ResolvedType

mutual

def toJson : ResolvedType → Json
  | .named ns name arguments =>
    .object [("named", .object
      ([("namespace", .string ns), ("name", .string name)] ++
        unlessEmpty "type_args" (listToJson arguments)))]
  | .array element rank =>
    .object [("array", .object [("element", toJson element), ("rank", .nat rank.toNat)])]
  | .byRef referent => .object [("by_ref", toJson referent)]
  | .parameter p => .object [("parameter", p.toJson)]
  | .unknown => .string "unknown"

def listToJson : List ResolvedType → List Json
  | [] => []
  | t :: rest => toJson t :: listToJson rest

end

mutual

def ofJson? (source : Source) : Nat → Json → Option ResolvedType
  | _, .string s => if s = "unknown" then some .unknown else none
  | room + 1, .object [(tag, content)] =>
    match tag with
    | "named" =>
      match room, variant? source ["namespace", "name", "type_args"] content with
      | room + 1, some [some ns, some name, arguments] =>
        return .named (← string? ns) (← string? name)
          (← orElse [] (listOfJson? source room) arguments)
      | _, _ => none
    | "array" =>
      match room, variant? source ["element", "rank"] content with
      | room + 1, some [some element, some rank] =>
        return .array (← ofJson? source room element) (← uint32? rank)
      | _, _ => none
    | "by_ref" => (ofJson? source room content).map .byRef
    | "parameter" => (TypeParameter.ofJson? room content).map .parameter
    | "unknown" => match content with
      | .null => some .unknown
      | _ => none
    | _ => none
  | _, _ => none

def listOfJson? (source : Source) : Nat → Json → Option (List ResolvedType)
  | room + 1, .array items => items.mapM (ofJson? source room)
  | _, _ => none

end

instance : Serialized ResolvedType := ⟨toJson, ofJson?⟩

end ResolvedType

namespace TypeSyntax

mutual

def toJson : TypeSyntax → Json
  | .keyword word => .object [("primitive", .string word)]
  | .simple name arguments =>
    .object [("simple", .object
      (("name", .string name) :: unlessEmpty "type_args" (listToJson arguments)))]
  | .member target name arguments =>
    .object [("member", .object
      ([("target", toJson target), ("name", .string name)] ++
        unlessEmpty "type_args" (listToJson arguments)))]
  | .array element rank =>
    .object [("array", .object [("element", toJson element), ("rank", .nat rank.toNat)])]

def listToJson : List TypeSyntax → List Json
  | [] => []
  | t :: rest => toJson t :: listToJson rest

end

mutual

def ofJson? (source : Source) : Nat → Json → Option TypeSyntax
  | room + 1, .object [(tag, content)] =>
    match tag with
    | "primitive" => (string? content).map .keyword
    | "simple" =>
      match room, variant? source ["name", "type_args"] content with
      | room + 1, some [some name, arguments] =>
        return .simple (← string? name) (← orElse [] (listOfJson? source room) arguments)
      | _, _ => none
    | "member" =>
      match room, variant? source ["target", "name", "type_args"] content with
      | room + 1, some [some target, some name, arguments] =>
        return .member (← ofJson? source room target) (← string? name)
          (← orElse [] (listOfJson? source room) arguments)
      | _, _ => none
    | "array" =>
      match room, variant? source ["element", "rank"] content with
      | room + 1, some [some element, some rank] =>
        return .array (← ofJson? source room element) (← uint32? rank)
      | _, _ => none
    | _ => none
  | _, _ => none

def listOfJson? (source : Source) : Nat → Json → Option (List TypeSyntax)
  | room + 1, .array items => items.mapM (ofJson? source room)
  | _, _ => none

end

theorem listToJson_eq_map (types : List TypeSyntax) : listToJson types = types.map toJson := by
  induction types with
  | nil => rfl
  | cons t rest ih => simp [listToJson, ih]

instance : Serialized TypeSyntax := ⟨toJson, ofJson?⟩

end TypeSyntax

end OperatorRecovery
