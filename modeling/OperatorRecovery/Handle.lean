import OperatorRecovery.Pattern
import OperatorRecovery.Spelling

/-!
Reflection handles. Compilers lower `typeof`, and references to fields and
methods in reflection, to a metadata token load inside one of the calls that
turn a handle back. The pair collapses to the expression that the token load
was made from. With a declaring type beside the token, the member inside the
token is named on that type first.
-/

namespace OperatorRecovery.Handle

open Pattern

def typeFromHandle : String := "System.Type.GetTypeFromHandle"

def fieldFromHandle : String := "System.Reflection.FieldInfo.GetFieldFromHandle"

def methodFromHandle : String := "System.Reflection.MethodBase.GetMethodFromHandle"

def methodInfoTypes : List String :=
  ["System.Reflection.MethodInfo", "System.Reflection.ConstructorInfo"]

/-- `typeof(D).TypeHandle`, with `typeof(D)` captured. -/
def declaringTypePattern : Pattern := member "TypeHandle" (capture "declaringType" typeOf)

/-- A loaded token, with the one reference inside it captured if it has one. -/
def tokenPattern : Pattern :=
  capture "token" (choice [loadToken (capture "reference" any), hasLoadToken])

def typePattern : Pattern :=
  callOf typeFromHandle
    [.required (member "TypeHandle" (capture "type" (choice [typeOf, refType any])))]

def fieldPattern : Pattern :=
  callOf fieldFromHandle
    [.required (member "FieldHandle" tokenPattern), .optional declaringTypePattern]

def methodPattern : Pattern :=
  castTo methodInfoTypes <| callOf methodFromHandle
    [.required (member "MethodHandle" tokenPattern), .optional declaringTypePattern]

/-- The expression captured under a name. -/
def captured? (m : Match) (root : Expr) (name : String) : Option Expr :=
  (m.capture? name).bind fun path => root.descendant? path

def typeOfOperand? (e : Expr) : Option TypeSyntax :=
  match e.form with
  | .typeOf type => some type
  | _ => none

/-- `Type.GetTypeFromHandle(typeof(T).TypeHandle)` as `typeof(T)`. -/
def type? (call : Expr) : Option Expr := do
  let m ← match? typePattern call
  let target ← captured? m call "type"
  return target.inheritInstructions call.annotations

/-- A member named on the declaring type, with the annotations of the reference. -/
def memberOf (declaringType : TypeSyntax) (name : String) (reference : Expr) : Expr :=
  ⟨.member (.ofForm (.typeReference declaringType)) name [], reference.annotations⟩

/-- The token with another reference inside. -/
def withReference (token reference : Expr) : Expr := token.replaceAt [1] reference

/-- The declaring type beside a token, if one was given. -/
def declaringType? (m : Match) (root : Expr) : Option TypeSyntax :=
  (captured? m root "declaringType").bind typeOfOperand?

/-- `FieldInfo.GetFieldFromHandle(token.FieldHandle)` as the token. With a declaring
type the field has to be known, or the call stays. -/
def field? (call : Expr) : Option Expr := do
  let m ← match? fieldPattern call
  let token ← captured? m call "token"
  match m.capture? "declaringType" with
  | none => return token.inheritInstructions call.annotations
  | some _ =>
    let declaringType ← declaringType? m call
    let reference ← captured? m call "reference"
    let field ← reference.field?
    let member := memberOf declaringType field.name reference
    return (withReference token member).inheritInstructions call.annotations

/-- `D.m(P₁, P₂, …)`, which tells overloads apart. The symbol stays with the
member, as the parameter list is no call. -/
def signature (spelling : Spelling) (declaringType : TypeSyntax) (method : Method)
    (reference : Expr) : Expr :=
  .ofForm <| .call (memberOf declaringType method.name reference) <|
    method.parameters.map fun p => .ofForm (.typeReference (spelling p.type))

def qualifiedMethod? (spelling : Spelling) (m : Match) (cast : Expr) : Option Expr := do
  let declaringType ← declaringType? m cast
  let reference ← captured? m cast "reference"
  let method ← reference.method?
  return signature spelling declaringType method reference

/-- `(MethodInfo)MethodBase.GetMethodFromHandle(token.MethodHandle)` as the token. -/
def method? (spelling : Spelling) (cast : Expr) : Option Expr := do
  let m ← match? methodPattern cast
  let token ← captured? m cast "token"
  let token := match qualifiedMethod? spelling m cast with
    | some reference => withReference token reference
    | none => token
  return token.annotate cast.annotations

end OperatorRecovery.Handle
