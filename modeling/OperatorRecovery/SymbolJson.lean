import OperatorRecovery.Annotation
import OperatorRecovery.TypeJson

/-!
The serialized form of symbols and annotations. Whether a method is static and
its parameters are always written, its type arguments only if there are any.
-/

namespace OperatorRecovery

open Json

namespace Parameter

def toJson (p : Parameter) : Json :=
  .object [("name", .string p.name), ("ty", p.type.toJson)]

def ofJson? (source : Source) : Nat → Json → Option Parameter
  | room + 1, j =>
    match record? ["name", "ty"] j with
    | some [some name, some type] =>
      return ⟨← string? name, ← ResolvedType.ofJson? source room type⟩
    | _ => none
  | 0, _ => none

end Parameter

namespace Method

def toJson (m : Method) : Json :=
  .object <|
    [("name", .string m.name), ("declaring_type", m.declaringType.toJson),
      ("is_static", .bool m.isStatic), ("parameters", .array (m.parameters.map Parameter.toJson)),
      ("return_type", m.returnType.toJson)] ++
    unlessEmpty "type_arguments" (m.typeArguments.map ResolvedType.toJson)

def ofJson? (source : Source) : Nat → Json → Option Method
  | room + 1, j =>
    match record? ["name", "declaring_type", "is_static", "parameters", "return_type",
        "type_arguments"] j with
    | some [some name, some declaringType, isStatic, parameters, some returnType,
        typeArguments] =>
      return {
        name := ← string? name
        declaringType := ← ResolvedType.ofJson? source room declaringType
        isStatic := ← orElse false bool? isStatic
        parameters := ← orElse [] (items? (Parameter.ofJson? source) room) parameters
        returnType := ← ResolvedType.ofJson? source room returnType
        typeArguments := ← orElse [] (items? (ResolvedType.ofJson? source) room) typeArguments }
    | _ => none
  | 0, _ => none

end Method

namespace Field

def toJson (f : Field) : Json :=
  .object [("name", .string f.name), ("declaring_type", f.declaringType.toJson),
    ("ty", f.type.toJson)]

def ofJson? (source : Source) : Nat → Json → Option Field
  | room + 1, j =>
    match record? ["name", "declaring_type", "ty"] j with
    | some [some name, some declaringType, some type] =>
      return ⟨← string? name, ← ResolvedType.ofJson? source room declaringType,
        ← ResolvedType.ofJson? source room type⟩
    | _ => none
  | 0, _ => none

end Field

namespace Symbol

def toJson : Symbol → Json
  | .method m => .object [("method", m.toJson)]
  | .field f => .object [("field", f.toJson)]
  | .type t => .object [("type", t.toJson)]

def ofJson? (source : Source) : Nat → Json → Option Symbol
  | room + 1, .object [(tag, content)] =>
    match tag with
    | "method" => (Method.ofJson? source room content).map .method
    | "field" => (Field.ofJson? source room content).map .field
    | "type" => (ResolvedType.ofJson? source room content).map .type
    | _ => none
  | _, _ => none

instance : Serialized Symbol := ⟨toJson, ofJson?⟩

end Symbol

namespace InstructionRange

def toJson (r : InstructionRange) : Json :=
  .object [("start", .nat r.start.toNat), ("end", .nat r.stop.toNat)]

def ofJson? : Nat → Json → Option InstructionRange
  | _ + 1, j =>
    match record? ["start", "end"] j with
    | some [some start, some stop] => return ⟨← uint32? start, ← uint32? stop⟩
    | _ => none
  | 0, _ => none

end InstructionRange

namespace Annotation

def toJson : Annotation → Json
  | .symbol s => .object [("symbol", s.toJson)]
  | .instructions ranges => .object [("instructions", .array (ranges.map InstructionRange.toJson))]
  | .resolvedType t => .object [("resolved_type", t.toJson)]
  | .loadToken => .string "load_token"

def ofJson? (source : Source) : Nat → Json → Option Annotation
  | _, .string s => if s = "load_token" then some .loadToken else none
  | room + 1, .object [(tag, content)] =>
    match tag with
    | "symbol" => (Symbol.ofJson? source room content).map .symbol
    | "instructions" => (items? InstructionRange.ofJson? room content).map .instructions
    | "resolved_type" => (ResolvedType.ofJson? source room content).map .resolvedType
    | "load_token" => match content with
      | .null => some .loadToken
      | _ => none
    | _ => none
  | _, _ => none

instance : Serialized Annotation := ⟨toJson, ofJson?⟩

end Annotation

namespace Annotations

def toJson (as : Annotations) : Json := .array (as.map Annotation.toJson)

def ofJson? (source : Source) : Nat → Json → Option Annotations :=
  let read := Annotation.ofJson? source
  items? read

instance : Serialized Annotations := ⟨toJson, ofJson?⟩

end Annotations

end OperatorRecovery
