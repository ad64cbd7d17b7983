import OperatorRecovery.Serialized
import OperatorRecovery.Settings

/-!
The serialized form of settings. Every field may be absent and then has its
initial value.
-/

namespace OperatorRecovery

open Json

namespace Settings

def rulesToJson (rules : RuleSet) : Json := Json.strings (rules.toList.map Rule.name)

def ruleOfJson? (room : Nat) (j : Json) : Option Rule := (name? room j).bind Rule.ofName?

def rulesOfJson? (room : Nat) (j : Json) : Option RuleSet :=
  (items? ruleOfJson? room j).map RuleSet.ofList

def versionOfJson? (room : Nat) (j : Json) : Option LanguageVersion :=
  (name? room j).bind LanguageVersion.ofName?

def toJson (s : Settings) : Json :=
  .object [("language_version", .string s.languageVersion.name),
    ("enabled_rules", rulesToJson s.enabledRules),
    ("disabled_rules", rulesToJson s.disabledRules),
    ("use_keywords", .bool s.useKeywords)]

def ofJson? : Nat → Json → Option Settings
  | room + 1, j =>
    match record? ["language_version", "enabled_rules", "disabled_rules", "use_keywords"] j with
    | some [version, enabled, disabled, keywords] =>
      return {
        languageVersion := ← orElse initial.languageVersion (versionOfJson? room) version
        enabledRules := ← orElse initial.enabledRules (rulesOfJson? room) enabled
        disabledRules := ← orElse initial.disabledRules (rulesOfJson? room) disabled
        useKeywords := ← orElse initial.useKeywords bool? keywords }
    | _ => none
  | 0, _ => none

instance : Serialized Settings := ⟨toJson, fun _ => ofJson?⟩

end Settings

end OperatorRecovery
