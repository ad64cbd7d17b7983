import OperatorRecovery.Proofs.SerializedTrees
import OperatorRecovery.SettingsJson

/-!
Serialized values that are read back in memory. There is room for any depth, so every value is
restored whose floating-point literals are finite. What a serialized form leaves out is thereby
restored as what was left out; the forms that could be taken for one another, an else branch
without statements and an absent one, or a returned null, a returned hole and a return without a
value, are told apart. The rules of settings form a set, and they are restored in whatever order
they are listed.
-/

namespace OperatorRecovery

open Json

namespace Settings

/-- The serialized form with the two sets of rules listed in these orders. -/
def toJsonListing (s : Settings) (enabled disabled : List Rule) : Json :=
  .object [("language_version", .string s.languageVersion.name),
    ("enabled_rules", Json.strings (enabled.map Rule.name)),
    ("disabled_rules", Json.strings (disabled.map Rule.name)),
    ("use_keywords", .bool s.useKeywords)]

theorem toJson_eq_toJsonListing (s : Settings) :
    s.toJson = s.toJsonListing s.enabledRules.toList s.disabledRules.toList := rfl

section Rules

variable (rules : List Rule)

theorem strings_map_name :
    Json.strings (rules.map Rule.name) = .array (rules.map fun rule => .string rule.name) := by
  rw [Json.strings, List.map_map]
  rfl

theorem depthOfItems_map_name : depthOfItems (rules.map fun rule => .string rule.name) = 0 := by
  induction rules with
  | nil => rfl
  | cons rule rules ih => simp [depthOfItems, depth, ih]

theorem depth_strings_map_name : (Json.strings (rules.map Rule.name)).depth = 1 := by
  rw [strings_map_name, depth, depthOfItems_map_name]

theorem rulesOfJson?_strings (room : Nat) :
    rulesOfJson? room (Json.strings (rules.map Rule.name)) =
      within room 1 (RuleSet.ofList rules) := by
  have hread : ∀ room, ∀ rule ∈ rules, ruleOfJson? room (.string rule.name) =
      within room (Json.string rule.name).depth rule := by
    intro room rule _
    simp [ruleOfJson?, name?, Rule.ofName?_name, depth]
  rw [rulesOfJson?, strings_map_name, items?_within hread, map_within, depthOfItems_map_name]

end Rules

theorem ofJson?_toJsonListing {s : Settings} {enabled disabled : List Rule}
    (henabled : RuleSet.ofList enabled = s.enabledRules)
    (hdisabled : RuleSet.ofList disabled = s.disabledRules) (room : Nat) :
    ofJson? room (s.toJsonListing enabled disabled) =
      within room (s.toJsonListing enabled disabled).depth s := by
  apply within_object
  · rfl
  · intro room
    rw [ofJson?, record?_named (by rfl) (by decide)]
    simp [orElse, versionOfJson?, name?, LanguageVersion.ofName?_name, rulesOfJson?_strings,
      bool?, henabled, hdisabled, depthOfFields, depth_strings_map_name, depth]

end Settings

/-- Every floating-point literal of the tree is a finite number. -/
def Tree.IsFinite (t : Tree) : Prop := ∀ node ∈ t.nodes, node.2.form.isFinite = true

theorem Tree.IsFinite.roundTrips {t : Tree} (h : t.IsFinite) (source : Source) :
    ∀ root ∈ t.roots, root.2.RoundTrips source := by
  intro root hroot
  have hevery : Expr.Every (fun _ e => e.form.isFinite = true) root.1 root.2 :=
    (t.forall_nodes_iff fun _ e => e.form.isFinite = true).mp h root hroot
  exact Expr.ofJson?_toJson source hevery

namespace Serialized

/-- Reading the serialized form of a value in memory gives the value back. -/
def Restores [Serialized α] (x : α) : Prop := decode? (toJson x) = some x

/-- In memory there is room for the depth of any value. -/
theorem decode?_of_within [Serialized α] {j : Json} {x : α}
    (h : ∀ room, ofJson? .memory room j = within room j.depth x) : decode? j = some x := by
  rw [decode?, h, within, if_pos (Nat.le_refl _)]

theorem restores_stmt {s : Stmt} (h : (Tree.stmt s).IsFinite) : Restores s :=
  decode?_of_within (s.ofJson?_toJson .memory (h.roundTrips .memory))

theorem restores_expr {e : Expr} (h : (Tree.expr e).IsFinite) : Restores e :=
  decode?_of_within (h.roundTrips .memory (.expression, e) (List.mem_singleton.mpr rfl))

theorem restores_literal {literal : Literal} (h : literal.isFinite = true) : Restores literal :=
  decode?_of_within (Literal.ofJson?_toJson h)

theorem decode?_toJsonListing {s : Settings} {enabled disabled : List Rule}
    (henabled : RuleSet.ofList enabled = s.enabledRules)
    (hdisabled : RuleSet.ofList disabled = s.disabledRules) :
    decode? (s.toJsonListing enabled disabled) = some s :=
  decode?_of_within (Settings.ofJson?_toJsonListing henabled hdisabled)

theorem restores_settings (s : Settings) : Restores s :=
  decode?_toJsonListing (RuleSet.ofList_toList _) (RuleSet.ofList_toList _)

/-- An else branch without statements is not an absent one. -/
theorem toJson_emptyElse_ne (condition : Expr) (thenBody : List Stmt) :
    (Stmt.ifElse condition thenBody (some [])).toJson ≠
      (Stmt.ifElse condition thenBody none).toJson := by
  simp [Stmt.toJson]

theorem toJson_hole_ne_null (as as' : Annotations) :
    (⟨.hole, as⟩ : Expr).toJson ≠ (⟨.literal .null, as'⟩ : Expr).toJson := by
  simp [Expr.toJson_mk, Form.map, Form.toJson]

theorem toJson_ne_null (e : Expr) : e.toJson ≠ .null := by
  obtain ⟨form, as⟩ := e
  rw [Expr.toJson_mk]
  nofun

/-- A return without a value, of a hole and of the null literal. -/
theorem pairwise_toJson_return (as as' : Annotations) :
    [Stmt.toJson (.return none), Stmt.toJson (.return (some ⟨.hole, as⟩)),
      Stmt.toJson (.return (some ⟨.literal .null, as'⟩))].Pairwise (· ≠ ·) := by
  have hnone : ∀ e : Expr, Stmt.toJson (.return none) ≠ Stmt.toJson (.return (some e)) := by
    intro e
    simpa [Stmt.toJson] using (toJson_ne_null e).symm
  have hsome : Stmt.toJson (.return (some ⟨.hole, as⟩)) ≠
      Stmt.toJson (.return (some ⟨.literal .null, as'⟩)) := by
    simpa [Stmt.toJson] using toJson_hole_ne_null as as'
  simp [hnone, hsome]

/-- Every serialized value with finite numbers is restored, and forms that lack a part are told
apart from those that have an empty one. -/
theorem forms_restore :
    (∀ s : Stmt, (Tree.stmt s).IsFinite → Restores s) ∧
      (∀ e : Expr, (Tree.expr e).IsFinite → Restores e) ∧
      (∀ literal : Literal, literal.isFinite = true → Restores literal) ∧
      (∀ t : TypeSyntax, Restores t) ∧
      (∀ t : ResolvedType, Restores t) ∧
      (∀ s : Symbol, Restores s) ∧
      (∀ as : Annotations, Restores as) ∧
      (∀ s : Settings, Restores s ∧ ∀ enabled disabled : List Rule,
        RuleSet.ofList enabled = s.enabledRules → RuleSet.ofList disabled = s.disabledRules →
          decode? (s.toJsonListing enabled disabled) = some s) ∧
      (∀ (condition : Expr) (thenBody : List Stmt),
        (Stmt.ifElse condition thenBody (some [])).toJson ≠
          (Stmt.ifElse condition thenBody none).toJson) ∧
      (∀ as as' : Annotations,
        [Stmt.toJson (.return none), Stmt.toJson (.return (some ⟨.hole, as⟩)),
          Stmt.toJson (.return (some ⟨.literal .null, as'⟩))].Pairwise (· ≠ ·)) := by
  refine ⟨fun _ => restores_stmt, fun _ => restores_expr, fun _ => restores_literal, ?_, ?_, ?_,
    ?_, ?_, toJson_emptyElse_ne, pairwise_toJson_return⟩
  · exact fun t => decode?_of_within (t.ofJson?_toJson .memory)
  · exact fun t => decode?_of_within (t.ofJson?_toJson .memory)
  · exact fun s => decode?_of_within (s.ofJson?_toJson .memory)
  · exact fun as => decode?_of_within (as.ofJson?_toJson .memory)
  · exact fun s => ⟨restores_settings s, fun _ _ => decode?_toJsonListing⟩

/-- `if (0.5) { T x; return null; } else { }`. -/
def halfTest : Stmt :=
  .ifElse (.ofForm (.literal (.float 0.5)))
    [.declaration (.simple "T" []) "x" none, .return (some (.ofForm (.literal .null)))] (some [])

/-- Two rules are enabled, listed out of their order, and none is disabled. -/
def twoRules : Settings :=
  ⟨.csharp2, .ofList [.stringConcat, .operatorTrue], .empty, true⟩

theorem forms_restore_halfTest :
    (Tree.stmt halfTest).IsFinite ∧ Restores halfTest ∧
      RuleSet.ofList [.operatorTrue, .stringConcat] = twoRules.enabledRules ∧
      RuleSet.ofList [] = twoRules.disabledRules ∧
      decode? (twoRules.toJsonListing [.operatorTrue, .stringConcat] []) = some twoRules := by
  have hfinite : (Tree.stmt halfTest).IsFinite := by
    unfold Tree.IsFinite
    decide +kernel
  have henabled : RuleSet.ofList [.operatorTrue, .stringConcat] = twoRules.enabledRules := by
    funext rule
    cases rule <;> rfl
  have hdisabled : RuleSet.ofList [] = twoRules.disabledRules := rfl
  obtain ⟨hstmt, -, -, -, -, -, -, hsettings, -⟩ := forms_restore
  exact ⟨hfinite, hstmt halfTest hfinite, henabled, hdisabled,
    (hsettings twoRules).2 _ _ henabled hdisabled⟩

end Serialized

end OperatorRecovery
