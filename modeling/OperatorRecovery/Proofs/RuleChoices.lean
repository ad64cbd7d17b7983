import OperatorRecovery.Proofs.PrintedTrees
import OperatorRecovery.Proofs.SerializedForms

/-!
Explicit choices for rules. A choice puts its rule into one of the two sets of the settings and
takes it out of the other. So the last choice that names a rule decides it, whatever the sets held
before, and a rule that no choice names stays as it was. The command line makes its choices on the
settings that were loaded, first those to enable and then those to disable.
-/

namespace OperatorRecovery

inductive RuleChoice
  | enable (rule : Rule)
  | disable (rule : Rule)

namespace RuleChoice

def rule : RuleChoice → Rule
  | .enable rule | .disable rule => rule

def isEnable : RuleChoice → Bool
  | .enable _ => true
  | .disable _ => false

theorem exists_last_naming {rule : Rule} {choices : List RuleChoice}
    (h : ∃ c ∈ choices, c.rule = rule) :
    ∃ before c after, choices = before ++ c :: after ∧ c.rule = rule ∧
      ∀ d ∈ after, d.rule ≠ rule := by
  induction choices with
  | nil =>
    obtain ⟨c, hc, -⟩ := h
    cases hc
  | cons first rest ih =>
    by_cases hrest : ∃ c ∈ rest, c.rule = rule
    · obtain ⟨before, c, after, rfl, hc, hafter⟩ := ih hrest
      exact ⟨first :: before, c, after, rfl, hc, hafter⟩
    · have hfirst : first.rule = rule := by simpa [hrest] using h
      exact ⟨[], first, rest, rfl, hfirst, fun d hd heq => hrest ⟨d, hd, heq⟩⟩

end RuleChoice

namespace Settings

def choose (s : Settings) : RuleChoice → Settings
  | .enable rule => s.enable rule
  | .disable rule => s.disable rule

/-- Nothing that the rule depends on differs. -/
structure AgreesOn (rule : Rule) (s t : Settings) : Prop where
  enabledRules_eq : s.enabledRules rule = t.enabledRules rule
  disabledRules_eq : s.disabledRules rule = t.disabledRules rule
  languageVersion_eq : s.languageVersion = t.languageVersion

section Choices

variable {s t u : Settings} {rule : Rule} {c : RuleChoice} {choices after : List RuleChoice}

theorem AgreesOn.refl (rule : Rule) (s : Settings) : AgreesOn rule s s := ⟨rfl, rfl, rfl⟩

theorem AgreesOn.trans (h : AgreesOn rule s t) (h' : AgreesOn rule t u) : AgreesOn rule s u :=
  ⟨h.enabledRules_eq.trans h'.enabledRules_eq, h.disabledRules_eq.trans h'.disabledRules_eq,
    h.languageVersion_eq.trans h'.languageVersion_eq⟩

theorem AgreesOn.isEnabled_eq (h : AgreesOn rule s t) : s.isEnabled rule = t.isEnabled rule := by
  rw [isEnabled, isEnabled, h.enabledRules_eq, h.disabledRules_eq, h.languageVersion_eq]

theorem agreesOn_choose (s : Settings) (h : c.rule ≠ rule) : AgreesOn rule (s.choose c) s := by
  cases c with
  | enable other =>
    have hne : rule ≠ other := h.symm
    constructor <;> simp [choose, enable, RuleSet.insert, RuleSet.erase, hne]
  | disable other =>
    have hne : rule ≠ other := h.symm
    constructor <;> simp [choose, disable, RuleSet.insert, RuleSet.erase, hne]

/-- The chosen rule is in the one set and not in the other. -/
theorem enabledRules_choose (s : Settings) (c : RuleChoice) :
    (s.choose c).enabledRules c.rule = c.isEnable ∧
      (s.choose c).disabledRules c.rule = !c.isEnable := by
  cases c <;>
    simp [choose, enable, disable, RuleSet.insert, RuleSet.erase, RuleChoice.rule,
      RuleChoice.isEnable]

theorem agreesOn_foldl_choose (s : Settings) (h : ∀ c ∈ choices, c.rule ≠ rule) :
    AgreesOn rule (choices.foldl choose s) s := by
  induction choices generalizing s with
  | nil => exact .refl rule s
  | cons c choices ih =>
    obtain ⟨hc, hchoices⟩ := List.forall_mem_cons.mp h
    exact (ih (s.choose c) hchoices).trans (s.agreesOn_choose hc)

/-- What the last choice for a rule left is there at the end. -/
theorem enabledRules_foldl_choose (s : Settings) (before : List RuleChoice) (hc : c.rule = rule)
    (hafter : ∀ d ∈ after, d.rule ≠ rule) :
    ((before ++ c :: after).foldl choose s).enabledRules rule = c.isEnable ∧
      ((before ++ c :: after).foldl choose s).disabledRules rule = !c.isEnable := by
  subst hc
  rw [List.foldl_append, List.foldl_cons]
  have hagrees := agreesOn_foldl_choose ((before.foldl choose s).choose c) hafter
  rw [hagrees.enabledRules_eq, hagrees.disabledRules_eq]
  exact enabledRules_choose _ c

theorem isEnabled_foldl_choose (s : Settings) (before : List RuleChoice) (hc : c.rule = rule)
    (hafter : ∀ d ∈ after, d.rule ≠ rule) :
    ((before ++ c :: after).foldl choose s).isEnabled rule = c.isEnable := by
  obtain ⟨henabled, hdisabled⟩ := enabledRules_foldl_choose s before hc hafter
  rw [isEnabled, henabled, hdisabled]
  cases c.isEnable <;> rfl

theorem isEnabled_foldl_choose_iff (s : Settings) (h : ∃ c ∈ choices, c.rule = rule) :
    (choices.foldl choose s).isEnabled rule = true ↔
      ∃ before after, choices = before ++ .enable rule :: after ∧ ∀ c ∈ after, c.rule ≠ rule := by
  constructor
  · intro henabled
    obtain ⟨before, c, after, rfl, hc, hafter⟩ := RuleChoice.exists_last_naming h
    rw [isEnabled_foldl_choose s before hc hafter] at henabled
    cases c with
    | enable other =>
      cases hc
      exact ⟨before, after, rfl, hafter⟩
    | disable other => cases henabled
  · rintro ⟨before, after, rfl, hafter⟩
    exact isEnabled_foldl_choose s before rfl hafter

/-- Choosing leaves no rule in both sets that it names. -/
theorem not_enabledRules_and_disabledRules (s : Settings) (h : ∃ c ∈ choices, c.rule = rule) :
    ¬ ((choices.foldl choose s).enabledRules rule = true ∧
      (choices.foldl choose s).disabledRules rule = true) := by
  obtain ⟨before, c, after, rfl, hc, hafter⟩ := RuleChoice.exists_last_naming h
  obtain ⟨henabled, hdisabled⟩ := enabledRules_foldl_choose s before hc hafter
  rw [henabled, hdisabled]
  cases c.isEnable <;> simp

/-- Choices that are all of one kind. -/
theorem isEnabled_foldl_choose_of_forall (s : Settings) {kind : Bool}
    (hkind : ∀ c ∈ choices, c.isEnable = kind) (h : ∃ c ∈ choices, c.rule = rule) :
    (choices.foldl choose s).isEnabled rule = kind := by
  obtain ⟨before, c, after, rfl, hc, hafter⟩ := RuleChoice.exists_last_naming h
  rw [isEnabled_foldl_choose s before hc hafter]
  exact hkind c (by simp)

end Choices

/-- Settings are read back from the text in which they are written. -/
theorem read?_printed (s : Settings) : Serialized.read? (s.toJson.pretty ++ "\n") = some s := by
  have hwritable : s.toJson.IsWritable := by
    simp [toJson_eq_toJsonListing, toJsonListing, strings_map_name]
  have hdepth : s.toJson.depth ≤ Serialized.nestingLimit := by
    rw [toJson_eq_toJsonListing, toJsonListing]
    simp [Json.depth, Json.depthOfFields, depth_strings_map_name, Serialized.nestingLimit]
  rw [Serialized.read?, JsonReader.read_pretty hwritable, Option.bind_some]
  show ofJson? Serialized.nestingLimit s.toJson = some s
  rw [toJson_eq_toJsonListing] at hdepth ⊢
  rw [ofJson?_toJsonListing (RuleSet.ofList_toList _) (RuleSet.ofList_toList _), Json.within,
    if_pos hdepth]

end Settings

namespace CommandLine

open Settings

/-- The settings before the options that override them. -/
def baseSettings? (files : FileSystem) (options : Options) : Option Settings :=
  match options.settingsFile with
  | none => some .initial
  | some file => (readText? files file).bind Serialized.read?

theorem loadSettings_eq_ok {files : FileSystem} {options : Options} {base : Settings}
    (h : baseSettings? files options = some base) :
    loadSettings files options = .ok (override base options) := by
  rw [baseSettings?] at h
  rw [loadSettings]
  cases hfile : options.settingsFile with
  | none =>
    rw [hfile] at h
    cases h
    rfl
  | some file =>
    simp only [hfile] at h
    simp only [h]

theorem override_eq_foldl (base : Settings) (options : Options) :
    override base options =
      (options.disabled.map .disable).foldl choose ((options.enabled.map .enable).foldl choose
        { base with languageVersion := options.languageVersion.getD base.languageVersion }) := by
  rw [List.foldl_map, List.foldl_map]
  rfl

theorem isEnabled_override (base : Settings) (options : Options) (rule : Rule) :
    (override base options).isEnabled rule =
      if rule ∈ options.disabled then false
      else if rule ∈ options.enabled then true
      else if base.enabledRules rule then true
      else if base.disabledRules rule then false
      else decide (rule.minimumVersion ≤ options.languageVersion.getD base.languageVersion) := by
  rw [override_eq_foldl]
  have hunnamed {choice : Rule → RuleChoice} (hchoice : ∀ other, (choice other).rule = other)
      {rules : List Rule} (hrules : rule ∉ rules) : ∀ c ∈ rules.map choice, c.rule ≠ rule :=
    List.forall_mem_map.mpr fun other hother heq => hrules (by rwa [← heq, hchoice other])
  split
  next hdisabled =>
    exact isEnabled_foldl_choose_of_forall _ (by simp [RuleChoice.isEnable])
      ⟨.disable rule, List.mem_map_of_mem hdisabled, rfl⟩
  next hdisabled =>
    rw [(agreesOn_foldl_choose _ (hunnamed (fun _ => rfl) hdisabled)).isEnabled_eq]
    split
    next henabled =>
      exact isEnabled_foldl_choose_of_forall _ (by simp [RuleChoice.isEnable])
        ⟨.enable rule, List.mem_map_of_mem henabled, rfl⟩
    next henabled =>
      rw [(agreesOn_foldl_choose _ (hunnamed (fun _ => rfl) henabled)).isEnabled_eq, isEnabled]
      cases base.enabledRules rule <;> cases base.disabledRules rule <;> simp

/-- The last choice that names a rule decides it. So the settings of a run have a rule off that is
to be disabled, else on if it is to be enabled, else as the settings file and the language version
have it. -/
theorem last_choice_decides :
    (∀ (s : Settings) (choices : List RuleChoice) (rule : Rule),
      ((∃ c ∈ choices, c.rule = rule) →
        ((choices.foldl choose s).isEnabled rule = true ↔
          ∃ before after, choices = before ++ .enable rule :: after ∧
            ∀ c ∈ after, c.rule ≠ rule) ∧
        ¬ ((choices.foldl choose s).enabledRules rule = true ∧
          (choices.foldl choose s).disabledRules rule = true)) ∧
      ((∀ c ∈ choices, c.rule ≠ rule) →
        (choices.foldl choose s).isEnabled rule = s.isEnabled rule)) ∧
    ∀ (files : FileSystem) (options : Options) (base : Settings),
      baseSettings? files options = some base →
      ∃ settings, loadSettings files options = .ok settings ∧ ∀ rule,
        settings.isEnabled rule =
          if rule ∈ options.disabled then false
          else if rule ∈ options.enabled then true
          else if base.enabledRules rule then true
          else if base.disabledRules rule then false
          else decide
            (rule.minimumVersion ≤ options.languageVersion.getD base.languageVersion) := by
  constructor
  · intro s choices rule
    constructor
    · intro hnamed
      exact ⟨isEnabled_foldl_choose_iff s hnamed, not_enabledRules_and_disabledRules s hnamed⟩
    · intro hunnamed
      exact (agreesOn_foldl_choose s hunnamed).isEnabled_eq
  · intro files options base hbase
    exact ⟨override base options, loadSettings_eq_ok hbase, isEnabled_override base options⟩

/-- Settings for a version without interpolation, with a rule in both sets. -/
def contested : Settings :=
  ⟨.csharp5, .ofList [.stringConcat, .operatorTrue], .ofList [.operatorTrue, .unaryOperators], true⟩

/-- Options that both enable and disable a rule of both sets. -/
def contestedOptions : Options where
  settingsFile := some "settings.json"
  languageVersion := some .csharp1
  enabled := [.operatorTrue, .unaryOperators, .operatorTrue]
  disabled := [.explicitConversion, .operatorTrue, .explicitConversion]

theorem last_choice_decides_contested :
    let files : FileSystem := fun _ => some (contested.toJson.pretty ++ "\n").toUTF8
    let choices : List RuleChoice :=
      [.enable .operatorTrue, .disable .operatorTrue, .enable .operatorTrue, .disable .stringConcat]
    let chosen := choices.foldl choose contested
    (chosen.isEnabled .operatorTrue = true ∧
      ¬ (chosen.enabledRules .operatorTrue = true ∧ chosen.disabledRules .operatorTrue = true) ∧
      chosen.isEnabled .unaryOperators = contested.isEnabled .unaryOperators) ∧
    baseSettings? files contestedOptions = some contested ∧
    ∃ settings, loadSettings files contestedOptions = .ok settings ∧
      Rule.all.filter settings.isEnabled =
        [.stringConcat, .handleUnwrapping, .binaryOperators, .unaryOperators] := by
  intro files choices chosen
  have hbase : baseSettings? files contestedOptions = some contested := by
    have htext : readText? files "settings.json" = some (contested.toJson.pretty ++ "\n") :=
      readText?_toUTF8 rfl
    show (readText? files "settings.json").bind Serialized.read? = some contested
    rw [htext, Option.bind_some, contested.read?_printed]
  obtain ⟨hchoices, hload⟩ := last_choice_decides
  obtain ⟨hlast, hexclusive⟩ := (hchoices contested choices .operatorTrue).1 (by decide)
  refine ⟨⟨?_, hexclusive, ?_⟩, hbase, ?_⟩
  · exact hlast.mpr ⟨[.enable .operatorTrue, .disable .operatorTrue], [.disable .stringConcat], rfl,
      by decide⟩
  · exact (hchoices contested choices .unaryOperators).2 (by decide)
  · obtain ⟨settings, hsettings, hrules⟩ := hload files contestedOptions contested hbase
    refine ⟨settings, hsettings, ?_⟩
    rw [show settings.isEnabled = _ from funext hrules]
    decide +kernel

end CommandLine

end OperatorRecovery
