import OperatorRecovery.ResolvedType

/-!
The syntax that spells a type in source code.
-/

namespace OperatorRecovery

inductive TypeSyntax
  | keyword (word : String)
  | simple (name : String) (arguments : List TypeSyntax)
  | member (target : TypeSyntax) (name : String) (arguments : List TypeSyntax)
  | array (element : TypeSyntax) (rank : UInt32)
  deriving Inhabited

namespace TypeSyntax

def ofName (name : String) : TypeSyntax := .simple name []

/-- The segments of a dotted name; there is always a first one. -/
def segments : List Char → List Char × List (List Char)
  | [] => ([], [])
  | c :: rest =>
    let (first, more) := segments rest
    if c = '.' then ([], first :: more) else (c :: first, more)

/-- The chain of member names that a dotted name spells. -/
def qualified (dotted : String) : TypeSyntax :=
  let (first, more) := segments dotted.toList
  more.foldl (fun target name => .member target (String.ofList name) [])
    (.ofName (String.ofList first))

/-- The rightmost name. -/
def name : TypeSyntax → String
  | .keyword word => word
  | .simple name _ => name
  | .member _ name _ => name
  | .array element _ => element.name

/-- The dotted name that a chain without type arguments spells. -/
def dotted? : TypeSyntax → Option String
  | .simple name [] => some name
  | .member target name [] => target.dotted?.map (· ++ "." ++ name)
  | _ => none

/-- Whether this syntax spells the type of that qualified name. An unqualified
name stands for every type whose last segment it is. -/
def refersTo (fullName : String) : TypeSyntax → Bool
  | .keyword word => BuiltinType.all.any fun b => b.keyword == word && b.fullName == fullName
  | .simple name [] => ResolvedType.lastSegment fullName.toList == name.toList
  | t@(.member _ _ []) => t.dotted? == some fullName
  | _ => false

mutual

def text : TypeSyntax → String
  | .keyword word => word
  | .simple name arguments => name ++ argumentsText arguments
  | .member target name arguments => text target ++ "." ++ name ++ argumentsText arguments
  | .array element rank => text element ++ ResolvedType.brackets rank

def argumentsText : List TypeSyntax → String
  | [] => ""
  | first :: rest => "<" ++ text first ++ moreArgumentsText rest

def moreArgumentsText : List TypeSyntax → String
  | [] => ">"
  | next :: rest => ", " ++ text next ++ moreArgumentsText rest

end

theorem refersTo_ofName (name fullName : String) :
    (ofName name).refersTo fullName =
      (ResolvedType.lastSegment fullName.toList == name.toList) := rfl

end TypeSyntax

end OperatorRecovery
