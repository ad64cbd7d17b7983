/-!
Versions of the output language. They are ordered, with the latest above all
numbered ones.
-/

namespace OperatorRecovery

inductive LanguageVersion
  | csharp1
  | csharp2
  | csharp3
  | csharp4
  | csharp5
  | csharp6
  | csharp7
  | csharp8
  | csharp9
  | csharp10
  | csharp11
  | latest
  deriving DecidableEq, Repr

namespace LanguageVersion

def all : List LanguageVersion :=
  [.csharp1, .csharp2, .csharp3, .csharp4, .csharp5, .csharp6, .csharp7, .csharp8,
   .csharp9, .csharp10, .csharp11, .latest]

def rank : LanguageVersion → Nat
  | .csharp1 => 1
  | .csharp2 => 2
  | .csharp3 => 3
  | .csharp4 => 4
  | .csharp5 => 5
  | .csharp6 => 6
  | .csharp7 => 7
  | .csharp8 => 8
  | .csharp9 => 9
  | .csharp10 => 10
  | .csharp11 => 11
  | .latest => 12

instance : LE LanguageVersion := ⟨fun a b => a.rank ≤ b.rank⟩

instance (a b : LanguageVersion) : Decidable (a ≤ b) :=
  inferInstanceAs (Decidable (a.rank ≤ b.rank))

/-- The number of a version, or the word for the latest. -/
def number : LanguageVersion → String
  | .latest => "latest"
  | v => toString v.rank

/-- The name in settings files. -/
def name : LanguageVersion → String
  | .latest => "latest"
  | v => "csharp" ++ v.number

def title : LanguageVersion → String
  | .latest => "Latest"
  | v => "CSharp" ++ v.number

def ofName? (name : String) : Option LanguageVersion := all.find? (·.name == name)

/-- Removes as many copies of `front` from the start as there are. The number
counts the characters of a copy that are still to be dropped. -/
def dropCopies (front : List Char) : Nat → List Char → List Char
  | _, [] => []
  | left + 1, _ :: rest => dropCopies front left rest
  | 0, c :: rest =>
    if front.isPrefixOf (c :: rest) then dropCopies front (front.length - 1) rest else c :: rest

/-- Reads a version from what a user types: a number or `latest`, in any case,
possibly after the name of the language. Letters outside ASCII occur in none of
these words, so only ASCII letters are folded. -/
def parse? (text : String) : Option LanguageVersion :=
  let lower := text.toList.map Char.toLower
  let strip := fun (front : String) => dropCopies front.toList 0
  let word := String.ofList (strip "c" (strip "cs" (strip "csharp" lower)))
  if word = "preview" then some .latest else all.find? (·.number == word)

theorem ofName?_name (v : LanguageVersion) : ofName? v.name = some v := by cases v <;> decide

end LanguageVersion

end OperatorRecovery
