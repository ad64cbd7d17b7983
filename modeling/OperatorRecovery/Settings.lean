import OperatorRecovery.LanguageVersion

/-!
The recovery rules in the order in which they are tried, and the settings that
decide which of them apply. An explicit choice for a rule goes before the
language version, and enabling goes before disabling.
-/

namespace OperatorRecovery

inductive Rule
  | stringConcat
  | handleUnwrapping
  | genericInstantiation
  | stringInterpolation
  | binaryOperators
  | unaryOperators
  | explicitConversion
  | operatorTrue
  deriving DecidableEq, Repr

namespace Rule

def all : List Rule :=
  [.stringConcat, .handleUnwrapping, .genericInstantiation, .stringInterpolation,
   .binaryOperators, .unaryOperators, .explicitConversion, .operatorTrue]

def name : Rule → String
  | .stringConcat => "string-concat"
  | .handleUnwrapping => "handle-unwrapping"
  | .genericInstantiation => "generic-instantiation"
  | .stringInterpolation => "string-interpolation"
  | .binaryOperators => "binary-operators"
  | .unaryOperators => "unary-operators"
  | .explicitConversion => "explicit-conversion"
  | .operatorTrue => "operator-true"

def description : Rule → String
  | .stringConcat => "Fold string.Concat calls into + chains"
  | .handleUnwrapping => "Unwrap GetTypeFromHandle/GetFieldFromHandle/GetMethodFromHandle"
  | .genericInstantiation => "Turn Activator.CreateInstance<T>() into new T()"
  | .stringInterpolation => "Turn string.Format calls into interpolated strings"
  | .binaryOperators => "Turn user-defined binary operator calls into operators"
  | .unaryOperators => "Turn user-defined unary operator calls into operators"
  | .explicitConversion => "Turn op_Explicit calls into casts"
  | .operatorTrue => "Drop op_True calls in conditions"

/-- The lowest version that has the syntax a rule produces. -/
def minimumVersion : Rule → LanguageVersion
  | .stringInterpolation => .csharp6
  | .genericInstantiation => .csharp2
  | _ => .csharp1

def ofName? (name : String) : Option Rule := all.find? (·.name == name)

/-- Reads a rule from what a user types, in any case and with underscores for
hyphens. No name has a letter outside ASCII, so only ASCII letters are folded. -/
def parse? (text : String) : Option Rule :=
  ofName? <| String.ofList <| text.toList.map fun c => if c = '_' then '-' else c.toLower

theorem mem_all (r : Rule) : r ∈ all := by cases r <;> decide

theorem ofName?_name (r : Rule) : ofName? r.name = some r := by cases r <;> decide

end Rule

/-- A name that stands for no rule or no version. -/
inductive UnknownName
  | rule (name : String)
  | languageVersion (text : String)
  deriving DecidableEq, Repr

def UnknownName.message : UnknownName → String
  | .rule name => "unknown rewrite rule: " ++ name
  | .languageVersion text => "unknown language version: " ++ text

def Rule.parse (text : String) : Except UnknownName Rule :=
  (parse? text).elim (.error (.rule text)) .ok

def LanguageVersion.parse (text : String) : Except UnknownName LanguageVersion :=
  (parse? text).elim (.error (.languageVersion text)) .ok

/-- A set of rules, given by its membership test. -/
abbrev RuleSet := Rule → Bool

namespace RuleSet

def empty : RuleSet := fun _ => false

def ofList (rules : List Rule) : RuleSet := fun r => rules.contains r

def insert (rule : Rule) (s : RuleSet) : RuleSet := fun r => decide (r = rule) || s r

def erase (rule : Rule) (s : RuleSet) : RuleSet := fun r => decide (r ≠ rule) && s r

def toList (s : RuleSet) : List Rule := Rule.all.filter s

theorem ofList_toList (s : RuleSet) : ofList s.toList = s := by
  funext r
  cases h : s r <;> simp [ofList, toList, h, Rule.mem_all]

end RuleSet

structure Settings where
  languageVersion : LanguageVersion
  enabledRules : RuleSet
  disabledRules : RuleSet
  /-- Built-in types are spelled by their keywords. -/
  useKeywords : Bool

namespace Settings

def ofVersion (version : LanguageVersion) : Settings := ⟨version, .empty, .empty, true⟩

/-- The settings of a run that chooses nothing. -/
def initial : Settings := ofVersion .latest

def enable (s : Settings) (rule : Rule) : Settings :=
  { s with
    enabledRules := s.enabledRules.insert rule
    disabledRules := s.disabledRules.erase rule }

def disable (s : Settings) (rule : Rule) : Settings :=
  { s with
    disabledRules := s.disabledRules.insert rule
    enabledRules := s.enabledRules.erase rule }

def isEnabled (s : Settings) (rule : Rule) : Bool :=
  s.enabledRules rule || !s.disabledRules rule && decide (rule.minimumVersion ≤ s.languageVersion)

/-- Enabling the rule does not give a version the syntax that it lacks. -/
def interpolatesStrings (s : Settings) : Bool :=
  s.isEnabled .stringInterpolation && decide (LanguageVersion.csharp6 ≤ s.languageVersion)

def hasUnsignedRightShift (s : Settings) : Bool :=
  decide (LanguageVersion.csharp11 ≤ s.languageVersion)

theorem isEnabled_disable (s : Settings) (rule : Rule) :
    (s.disable rule).isEnabled rule = false := by
  simp [isEnabled, disable, RuleSet.insert, RuleSet.erase]

theorem isEnabled_disable_of_ne (s : Settings) {rule other : Rule} (h : other ≠ rule) :
    (s.disable rule).isEnabled other = s.isEnabled other := by
  simp [isEnabled, disable, RuleSet.insert, RuleSet.erase, h]
  rfl

end Settings

end OperatorRecovery
