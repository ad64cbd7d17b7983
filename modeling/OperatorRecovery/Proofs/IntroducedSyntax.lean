import OperatorRecovery.Proofs.FormCounts

/-!
Syntax that a run may introduce. Older versions of the language lack interpolated strings and
the unsigned right shift, so these need a version besides their rule, and enabling the rule does
not stand in for the version. All other syntax needs a rule that makes it. No rule copies a part,
so where nothing makes nodes of a kind there are not more of them afterwards.
-/

namespace OperatorRecovery

/-- The kinds of nodes that settings can keep a run from introducing. -/
inductive SyntaxKind
  | interpolated
  | unsignedShift
  | creation
  | cast
  | unary
  | binary
  deriving DecidableEq

namespace SyntaxKind

def holds : SyntaxKind → Form Unit → Bool
  | .interpolated, .interpolated _ => true
  | .unsignedShift, .binary .unsignedShiftRight _ _ => true
  | .creation, .creation _ _ => true
  | .cast, .cast _ _ => true
  | .unary, .unary _ _ => true
  | .binary, .binary _ _ _ => true
  | _, _ => false

/-- Whether the settings let a run introduce nodes of the kind. -/
def isAvailable (settings : Settings) : SyntaxKind → Bool
  | .interpolated =>
    settings.isEnabled .stringInterpolation && decide (.csharp6 ≤ settings.languageVersion)
  | .unsignedShift =>
    settings.isEnabled .binaryOperators && decide (.csharp11 ≤ settings.languageVersion)
  | .creation => settings.isEnabled .genericInstantiation
  | .cast => settings.isEnabled .explicitConversion
  | .unary => settings.isEnabled .unaryOperators
  | .binary =>
    settings.isEnabled .stringConcat || settings.isEnabled .binaryOperators ||
      settings.isEnabled .unaryOperators

/-- Of the two operators that may be missing, the shift asks for the version alone. -/
theorem isAvailable_unsignedShift {settings : Settings}
    (enabled : settings.isEnabled .binaryOperators = true)
    (available : OperatorCall.isAvailable settings .unsignedShiftRight = true) :
    isAvailable settings .unsignedShift = true := by
  have hversion : settings.hasUnsignedRightShift = true := available
  rw [isAvailable, enabled, Bool.true_and]
  exact hversion

/-- A rule that makes a node of a kind is enabled, and so is what the kind needs besides. -/
theorem isAvailable_of_makes {settings : Settings} {shape : Form Unit}
    (makes : Pass.Makes settings shape) {kind : SyntaxKind} (h : kind.holds shape = true) :
    kind.isAvailable settings = true := by
  cases kind with
  | interpolated =>
    cases makes with
    | interpolated enabled => exact enabled
    | _ => cases h
  | unsignedShift =>
    cases makes with
    | @binary enabled op available =>
      cases op with
      | unsignedShiftRight => exact isAvailable_unsignedShift enabled available
      | _ => cases h
    | @step _ op _ steps =>
      -- A decimal is stepped by an addition or a subtraction.
      cases op <;> cases steps <;> cases h
    | _ => cases h
  | creation =>
    cases makes with
    | creation enabled => exact enabled
    | _ => cases h
  | cast =>
    cases makes with
    | conversion enabled => exact enabled
    | _ => cases h
  | unary =>
    cases makes with
    | unary enabled => exact enabled
    | _ => cases h
  | binary =>
    cases makes with
    | sum enabled => simp [isAvailable, enabled]
    | binary enabled => simp [isAvailable, enabled]
    | step enabled => simp [isAvailable, enabled]
    | _ => cases h

end SyntaxKind

/-- A run introduces nodes of a kind only where the settings make the kind available. -/
theorem Tree.isAvailable_of_count_lt (settings : Settings) (spelling : Spelling) (t : Tree)
    (kind : SyntaxKind)
    (grows : t.count kind.holds < (t.recover settings spelling).count kind.holds) :
    kind.isAvailable settings = true := by
  by_contra unavailable
  have unmade : ∀ shape, Pass.Makes settings shape → kind.holds shape = false := by
    intro shape makes
    exact eq_false_of_ne_true fun h => unavailable (kind.isAvailable_of_makes makes h)
  have hle : (t.recover settings spelling).count kind.holds ≤ t.count kind.holds :=
    count_recover_le unmade t
  omega

/-- `while (op_True(op_UnsignedRightShift(a, b) >>> c)) { }`, where only the outer shift is
written as one. -/
def shiftedCondition : Tree :=
  let name (s : String) : Expr := .ofForm (.identifier s)
  let type : ResolvedType := .named "N" "C" []
  let shift := Expr.staticCall (.ofName type "op_UnsignedRightShift") [name "a", name "b"]
  .stmt (.while (.staticCall (.ofName type "op_True")
    [.ofForm (.binary .unsignedShiftRight shift (name "c"))]) [])

theorem isAvailable_of_count_lt_shiftedCondition :
    shiftedCondition.count SyntaxKind.unsignedShift.holds <
        (shiftedCondition.recover .initial (SpellingStyle.spell ⟨true, false⟩)).count
          SyntaxKind.unsignedShift.holds ∧
      SyntaxKind.unsignedShift.isAvailable .initial = true :=
  have grows : shiftedCondition.count SyntaxKind.unsignedShift.holds <
      (shiftedCondition.recover .initial (SpellingStyle.spell ⟨true, false⟩)).count
        SyntaxKind.unsignedShift.holds := by decide
  ⟨grows, Tree.isAvailable_of_count_lt .initial (SpellingStyle.spell ⟨true, false⟩)
    shiftedCondition .unsignedShift grows⟩

end OperatorRecovery
