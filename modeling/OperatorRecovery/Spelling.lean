import OperatorRecovery.TypeSyntax

/-!
Turning resolved types into the syntax that spells them. A run of the pass may
use any spelling; the one given here knows nothing of the names in scope and
has two choices, keywords for built-in types and namespaces in front of names.
-/

namespace OperatorRecovery

abbrev Spelling := ResolvedType → TypeSyntax

structure SpellingStyle where
  useKeywords : Bool
  fullyQualify : Bool
  deriving DecidableEq, Repr

namespace SpellingStyle

/-- The name without the mark and number of its type parameters. -/
def withoutArity (name : String) : String :=
  String.ofList (name.toList.takeWhile (· ≠ '\x60'))

def spellName (style : SpellingStyle) («namespace» name : String)
    (arguments : List TypeSyntax) : TypeSyntax :=
  if style.fullyQualify && «namespace» != "" then
    .member (.qualified «namespace») (withoutArity name) arguments
  else .simple (withoutArity name) arguments

mutual

/-- Passing by reference is expressed where a type is used, not in its syntax. -/
def spell (style : SpellingStyle) : ResolvedType → TypeSyntax
  | .named ns name arguments =>
    match style.useKeywords, (ResolvedType.named ns name arguments).builtin? with
    | true, some b => .keyword b.keyword
    | _, _ => style.spellName ns name (spellList style arguments)
  | .array element rank => .array (spell style element) rank
  | .byRef referent => spell style referent
  | .parameter p => .ofName p.name
  | .unknown => .ofName "?"

def spellList (style : SpellingStyle) : List ResolvedType → List TypeSyntax
  | [] => []
  | t :: rest => spell style t :: spellList style rest

end

theorem spellList_eq_map (style : SpellingStyle) (types : List ResolvedType) :
    spellList style types = types.map style.spell := by
  induction types with
  | nil => rfl
  | cons t rest ih => simp [spellList, ih]

end SpellingStyle

end OperatorRecovery
