import OperatorRecovery.Pass
import OperatorRecovery.Proofs.HandleRules

/-!
What the pass does at one node. Every rule is read off as the shape of call that
it accepts and the expression that it gives; `Rewrites` has a constructor for each of
them, with the settings it needs. A node that admits no rewrite stays as it is,
and every other call or cast is rewritten.
-/

namespace OperatorRecovery

section Rules

variable {method : Method} {target result : Expr} {arguments : List Expr}
  {annotations : Annotations}

theorem Concatenation.recover?_eq_some_iff :
    recover? method ⟨.call target arguments, annotations⟩ = some result ↔
      ∃ first second rest, arguments = first :: second :: rest ∧ accepts method = true ∧
        (first :: second :: rest).any Expr.isNamed = false ∧
        (isString first || isString second) = true ∧
        result = ⟨(chain first (second :: rest)).form, annotations⟩ := by
  match arguments with
  | [] => simp [recover?, Expr.arguments, Form.arguments]
  | [_] => simp [recover?, Expr.arguments, Form.arguments]
  | first :: second :: rest =>
    simp only [recover?, Expr.arguments, Form.arguments, Option.ite_none_right_eq_some,
      Bool.and_eq_true, Bool.not_eq_true', Option.some.injEq]
    constructor
    · intro h
      obtain ⟨⟨⟨haccepts, hunnamed⟩, hstrings⟩, rfl⟩ := h
      exact ⟨first, second, rest, rfl, haccepts, hunnamed, hstrings, rfl⟩
    · intro h
      obtain ⟨_, _, _, hcons, haccepts, hunnamed, hstrings, rfl⟩ := h
      cases hcons
      exact ⟨⟨⟨haccepts, hunnamed⟩, hstrings⟩, rfl⟩

theorem Instantiation.recover?_eq_some_iff {spelling : Spelling} :
    recover? spelling method ⟨.call target arguments, annotations⟩ = some result ↔
      ∃ parameter, arguments = [] ∧ method.fullName = methodName ∧
        parameter? method = some parameter ∧
        result = ⟨.creation (spelling (.parameter parameter)) [], annotations⟩ := by
  simp only [recover?, Expr.arguments, Form.arguments, Option.ite_none_right_eq_some,
    Bool.and_eq_true, beq_iff_eq, List.isEmpty_iff, Option.map_eq_some_iff]
  constructor
  · intro h
    obtain ⟨⟨hname, hempty⟩, parameter, hparameter, rfl⟩ := h
    exact ⟨parameter, hempty, hname, hparameter, rfl⟩
  · intro h
    obtain ⟨parameter, hempty, hname, hparameter, rfl⟩ := h
    exact ⟨⟨hname, hempty⟩, parameter, hparameter, rfl⟩

theorem Interpolation.recover?_eq_some_iff :
    recover? method ⟨.call target arguments, annotations⟩ = some result ↔
      ∃ format first rest text segments, arguments = format :: first :: rest ∧
        method.fullName = methodName ∧
        (first :: rest).any Expr.containsStringLiteral = false ∧
        (format :: first :: rest).any Expr.isNamed = false ∧
        passesArray method (format :: first :: rest).length = false ∧
        format? format = some text ∧
        FormatPlan.plan text.toList (first :: rest).length = .ok segments ∧
        result = ⟨.interpolated (FormatPlan.build segments (first :: rest)), annotations⟩ := by
  match arguments with
  | [] => simp [recover?, Expr.arguments, Form.arguments]
  | [_] => simp [recover?, Expr.arguments, Form.arguments]
  | format :: first :: rest =>
    simp only [recover?, Expr.arguments, Form.arguments, Option.ite_none_right_eq_some,
      Bool.and_eq_true, Bool.not_eq_true', beq_iff_eq, Option.bind_eq_some_iff]
    constructor
    · intro h
      obtain ⟨⟨⟨⟨hname, hliterals⟩, hunnamed⟩, hspread⟩, text, htext, h⟩ := h
      split at h
      · rename_i segments hplan
        cases h
        exact ⟨format, first, rest, text, segments, rfl, hname, hliterals, hunnamed, hspread,
          htext, hplan, rfl⟩
      · cases h
    · intro h
      obtain ⟨_, _, _, text, segments, hcons, hname, hliterals, hunnamed, hspread, htext, hplan,
        rfl⟩ := h
      cases hcons
      exact ⟨⟨⟨⟨hname, hliterals⟩, hunnamed⟩, hspread⟩, text, htext, by rw [hplan]⟩

theorem OperatorCall.binary?_eq_some_iff {settings : Settings} :
    binary? settings method ⟨.call target arguments, annotations⟩ = some result ↔
      ∃ left right op, arguments = [left, right] ∧
        BinaryOperator.ofMetadataName? method.name = some op ∧ isAvailable settings op = true ∧
        result = ⟨.binary op (operand left) (operand right), annotations⟩ := by
  simp only [binary?, Expr.arguments, Form.arguments]
  constructor
  · intro h
    split at h
    · rename_i left right op hname
      split at h
      · rename_i havailable
        cases h
        exact ⟨left, right, op, rfl, hname, havailable, rfl⟩
      · cases h
    · cases h
  · intro h
    obtain ⟨left, right, op, rfl, hname, havailable, rfl⟩ := h
    simp [hname, havailable]

theorem OperatorCall.unary?_eq_some_iff :
    unary? method ⟨.call target arguments, annotations⟩ = some result ↔
      ∃ argument op, arguments = [argument] ∧
        UnaryOperator.ofMetadataName? method.name = some op ∧
        result = ⟨unaryForm method op (operand argument), annotations⟩ := by
  simp only [unary?, Expr.arguments, Form.arguments]
  constructor
  · intro h
    split at h
    · rename_i argument op hname
      cases h
      exact ⟨argument, op, rfl, hname, rfl⟩
    · cases h
  · intro h
    obtain ⟨argument, op, rfl, hname, rfl⟩ := h
    simp [hname]

theorem OperatorCall.explicit?_eq_some_iff {spelling : Spelling} :
    explicit? spelling method ⟨.call target arguments, annotations⟩ = some result ↔
      ∃ argument, arguments = [argument] ∧ method.name = explicitName ∧
        result = ⟨.cast (spelling method.returnType) (operand argument), annotations⟩ := by
  simp only [explicit?, Expr.arguments, Form.arguments]
  constructor
  · intro h
    split at h
    · rename_i argument
      split at h
      · rename_i hname
        cases h
        exact ⟨argument, rfl, eq_of_beq hname, rfl⟩
      · cases h
    · cases h
  · intro h
    obtain ⟨argument, rfl, hname, rfl⟩ := h
    simp [hname]

theorem OperatorCall.truth?_eq_some_iff :
    truth? method ⟨.call target arguments, annotations⟩ = some result ↔
      ∃ argument, arguments = [argument] ∧ method.name = trueName ∧
        result = stripTrueTests [] ⟨.call target [argument], annotations⟩ := by
  simp only [truth?, Expr.arguments, Form.arguments]
  constructor
  · intro h
    split at h
    · rename_i argument
      split at h
      · rename_i hname
        cases h
        exact ⟨argument, rfl, eq_of_beq hname, rfl⟩
      · cases h
    · cases h
  · intro h
    obtain ⟨argument, rfl, hname, rfl⟩ := h
    simp [hname]

theorem OperatorCall.isTrueTest_iff :
    isTrueTest annotations = true ↔
      ∃ method, Annotations.method? annotations = some method ∧ method.name = trueName := by
  simp only [isTrueTest, Option.any_eq_true, beq_iff_eq]

end Rules

/-- Neither a call nor a cast. -/
def Form.isFixed : Form ε → Bool
  | .call _ _ | .cast _ _ => false
  | _ => true

namespace Pass

variable (settings : Settings) (spelling : Spelling)

/-- The rewrites of a node in a role. -/
inductive Rewrites (role : Role) : Expr → Expr → Prop
  | concatenation {target first second : Expr} {rest : List Expr} {annotations : Annotations}
    {method : Method} (enabled : settings.isEnabled .stringConcat = true)
    (resolved : Annotations.method? annotations = some method)
    (accepted : Concatenation.accepts method = true)
    (unnamed : (first :: second :: rest).any Expr.isNamed = false)
    (strings : (Concatenation.isString first || Concatenation.isString second) = true) :
    Rewrites role ⟨.call target (first :: second :: rest), annotations⟩
      ⟨(Concatenation.chain first (second :: rest)).form, annotations⟩
  | typeHandle {target argument operand : Expr} {annotations : Annotations}
    (enabled : settings.isEnabled .handleUnwrapping = true)
    (resolves : Handle.ResolvesTo Handle.typeFromHandle annotations)
    (selects : Handle.Selects "TypeHandle" operand argument)
    (isOperand : Handle.IsTypeOperand operand) :
    Rewrites role ⟨.call target [argument], annotations⟩ (operand.inheritInstructions annotations)
  | fieldHandle {target first token replacement : Expr} {rest : List Expr}
    {annotations : Annotations} (enabled : settings.isEnabled .handleUnwrapping = true)
    (resolves : Handle.ResolvesTo Handle.fieldFromHandle annotations)
    (selects : Handle.Selects "FieldHandle" token first)
    (loads : Annotations.hasLoadToken token.annotations = true)
    (replaces : Handle.FieldToken rest token replacement) :
    Rewrites role ⟨.call target (first :: rest), annotations⟩
      (replacement.inheritInstructions annotations)
  | instantiation {target : Expr} {annotations : Annotations} {method : Method}
    {parameter : TypeParameter} (enabled : settings.isEnabled .genericInstantiation = true)
    (resolved : Annotations.method? annotations = some method)
    (named : method.fullName = Instantiation.methodName)
    (instantiates : Instantiation.parameter? method = some parameter) :
    Rewrites role ⟨.call target [], annotations⟩
      ⟨.creation (spelling (.parameter parameter)) [], annotations⟩
  | interpolation {target format first : Expr} {rest : List Expr} {annotations : Annotations}
    {method : Method} {text : String} {segments : List FormatPlan.Segment}
    (enabled : settings.interpolatesStrings = true)
    (resolved : Annotations.method? annotations = some method)
    (named : method.fullName = Interpolation.methodName)
    (literals : (first :: rest).any Expr.containsStringLiteral = false)
    (unnamed : (format :: first :: rest).any Expr.isNamed = false)
    (spread : Interpolation.passesArray method (format :: first :: rest).length = false)
    (literal : Interpolation.format? format = some text)
    (planned : FormatPlan.plan text.toList (first :: rest).length = .ok segments) :
    Rewrites role ⟨.call target (format :: first :: rest), annotations⟩
      ⟨.interpolated (FormatPlan.build segments (first :: rest)), annotations⟩
  | binary {target left right : Expr} {annotations : Annotations} {method : Method}
    {op : BinaryOperator} (enabled : settings.isEnabled .binaryOperators = true)
    (resolved : Annotations.method? annotations = some method)
    (named : BinaryOperator.ofMetadataName? method.name = some op)
    (available : OperatorCall.isAvailable settings op = true) :
    Rewrites role ⟨.call target [left, right], annotations⟩
      ⟨.binary op (OperatorCall.operand left) (OperatorCall.operand right), annotations⟩
  | unary {target argument : Expr} {annotations : Annotations} {method : Method}
    {op : UnaryOperator} (enabled : settings.isEnabled .unaryOperators = true)
    (resolved : Annotations.method? annotations = some method)
    (named : UnaryOperator.ofMetadataName? method.name = some op) :
    Rewrites role ⟨.call target [argument], annotations⟩
      ⟨OperatorCall.unaryForm method op (OperatorCall.operand argument), annotations⟩
  | conversion {target argument : Expr} {annotations : Annotations} {method : Method}
    (enabled : settings.isEnabled .explicitConversion = true)
    (resolved : Annotations.method? annotations = some method)
    (named : method.name = OperatorCall.explicitName) :
    Rewrites role ⟨.call target [argument], annotations⟩
      ⟨.cast (spelling method.returnType) (OperatorCall.operand argument), annotations⟩
  | truthTest {target argument : Expr} {annotations : Annotations}
    (enabled : settings.isEnabled .operatorTrue = true) (condition : role = .condition)
    (tests : OperatorCall.isTrueTest annotations = true) :
    Rewrites role ⟨.call target [argument], annotations⟩
      (OperatorCall.stripTrueTests [] ⟨.call target [argument], annotations⟩)
  | methodHandle {type : TypeSyntax} {target first token replacement : Expr} {rest : List Expr}
    {callAnnotations annotations : Annotations}
    (enabled : settings.isEnabled .handleUnwrapping = true)
    (refers : Handle.methodInfoTypes.any type.refersTo = true)
    (resolves : Handle.ResolvesTo Handle.methodFromHandle callAnnotations)
    (selects : Handle.Selects "MethodHandle" token first)
    (loads : Annotations.hasLoadToken token.annotations = true)
    (replaces : Handle.MethodToken spelling rest token replacement) :
    Rewrites role ⟨.cast type ⟨.call target (first :: rest), callAnnotations⟩, annotations⟩
      (replacement.annotate annotations)

variable {settings spelling}

section Calls

variable {role : Role} {target result : Expr} {arguments : List Expr} {annotations : Annotations}

theorem rewrites_of_recoverBy? {method : Method} {rule : Rule}
    (resolved : Annotations.method? annotations = some method)
    (h : recoverBy? settings spelling role method ⟨.call target arguments, annotations⟩ rule =
      some result) :
    Rewrites settings spelling role ⟨.call target arguments, annotations⟩ result := by
  cases rule <;> simp only [recoverBy?, Option.ite_none_right_eq_some] at h
  case stringConcat =>
    obtain ⟨first, second, rest, rfl, haccepts, hunnamed, hstrings, rfl⟩ :=
      Concatenation.recover?_eq_some_iff.mp h.2
    exact .concatenation h.1 resolved haccepts hunnamed hstrings
  case handleUnwrapping =>
    rcases Option.or_eq_some_iff.mp h.2 with htype | ⟨_, hfield⟩
    · obtain ⟨_, _, _, operand, heq, hresolves, hselects, hoperand, rfl⟩ :=
        Handle.type?_eq_some_iff.mp htype
      cases heq
      exact .typeHandle h.1 hresolves hselects hoperand
    · obtain ⟨_, _, _, _, token, replacement, heq, hresolves, hselects, hloads, hreplaces, rfl⟩ :=
        Handle.field?_eq_some_iff.mp hfield
      cases heq
      exact .fieldHandle h.1 hresolves hselects hloads hreplaces
  case genericInstantiation =>
    obtain ⟨parameter, rfl, hname, hparameter, rfl⟩ := Instantiation.recover?_eq_some_iff.mp h.2
    exact .instantiation h.1 resolved hname hparameter
  case stringInterpolation =>
    obtain ⟨format, first, rest, text, segments, rfl, hname, hliterals, hunnamed, hspread, htext,
      hplan, rfl⟩ := Interpolation.recover?_eq_some_iff.mp h.2
    exact .interpolation h.1 resolved hname hliterals hunnamed hspread htext hplan
  case binaryOperators =>
    obtain ⟨left, right, op, rfl, hname, havailable, rfl⟩ :=
      OperatorCall.binary?_eq_some_iff.mp h.2
    exact .binary h.1 resolved hname havailable
  case unaryOperators =>
    obtain ⟨argument, op, rfl, hname, rfl⟩ := OperatorCall.unary?_eq_some_iff.mp h.2
    exact .unary h.1 resolved hname
  case explicitConversion =>
    obtain ⟨argument, rfl, hname, rfl⟩ := OperatorCall.explicit?_eq_some_iff.mp h.2
    exact .conversion h.1 resolved hname
  case operatorTrue =>
    obtain ⟨argument, rfl, hname, rfl⟩ := OperatorCall.truth?_eq_some_iff.mp h.2
    obtain ⟨henabled, hrole⟩ := Bool.and_eq_true_iff.mp h.1
    exact .truthTest henabled (eq_of_beq hrole)
      (OperatorCall.isTrueTest_iff.mpr ⟨method, resolved, hname⟩)

theorem Rewrites.recoverBy?
    (h : Rewrites settings spelling role ⟨.call target arguments, annotations⟩ result) :
    ∃ method rule, Annotations.method? annotations = some method ∧
      recoverBy? settings spelling role method ⟨.call target arguments, annotations⟩ rule =
        some result := by
  cases h with
  | concatenation enabled resolved accepted unnamed strings =>
    refine ⟨_, .stringConcat, resolved, ?_⟩
    rw [Pass.recoverBy?, if_pos enabled]
    exact Concatenation.recover?_eq_some_iff.mpr ⟨_, _, _, rfl, accepted, unnamed, strings, rfl⟩
  | typeHandle enabled resolves selects isOperand =>
    obtain ⟨method, resolved, _⟩ := id resolves
    refine ⟨method, .handleUnwrapping, resolved, ?_⟩
    rw [Pass.recoverBy?, if_pos enabled, Option.or_eq_some_iff]
    exact Or.inl (Handle.type?_eq_some_iff.mpr
      ⟨_, _, _, _, rfl, resolves, selects, isOperand, rfl⟩)
  | fieldHandle enabled resolves selects loads replaces =>
    obtain ⟨method, resolved, _⟩ := id resolves
    refine ⟨method, .handleUnwrapping, resolved, ?_⟩
    rw [Pass.recoverBy?, if_pos enabled, Option.or_eq_some_iff]
    refine Or.inr ⟨?_, Handle.field?_eq_some_iff.mpr
      ⟨_, _, _, _, _, _, rfl, resolves, selects, loads, replaces, rfl⟩⟩
    rw [Option.eq_none_iff_forall_ne_some]
    intro result htype
    obtain ⟨_, _, _, _, heq, hresolves, _⟩ := Handle.type?_eq_some_iff.mp htype
    cases heq
    exact absurd (hresolves.unique resolves) (by decide)
  | instantiation enabled resolved named instantiates =>
    refine ⟨_, .genericInstantiation, resolved, ?_⟩
    rw [Pass.recoverBy?, if_pos enabled]
    exact Instantiation.recover?_eq_some_iff.mpr ⟨_, rfl, named, instantiates, rfl⟩
  | interpolation enabled resolved named literals unnamed spread literal planned =>
    refine ⟨_, .stringInterpolation, resolved, ?_⟩
    rw [Pass.recoverBy?, if_pos enabled]
    exact Interpolation.recover?_eq_some_iff.mpr
      ⟨_, _, _, _, _, rfl, named, literals, unnamed, spread, literal, planned, rfl⟩
  | binary enabled resolved named available =>
    refine ⟨_, .binaryOperators, resolved, ?_⟩
    rw [Pass.recoverBy?, if_pos enabled]
    exact OperatorCall.binary?_eq_some_iff.mpr ⟨_, _, _, rfl, named, available, rfl⟩
  | unary enabled resolved named =>
    refine ⟨_, .unaryOperators, resolved, ?_⟩
    rw [Pass.recoverBy?, if_pos enabled]
    exact OperatorCall.unary?_eq_some_iff.mpr ⟨_, _, rfl, named, rfl⟩
  | conversion enabled resolved named =>
    refine ⟨_, .explicitConversion, resolved, ?_⟩
    rw [Pass.recoverBy?, if_pos enabled]
    exact OperatorCall.explicit?_eq_some_iff.mpr ⟨_, rfl, named, rfl⟩
  | truthTest enabled condition tests =>
    obtain ⟨method, resolved, hname⟩ := OperatorCall.isTrueTest_iff.mp tests
    refine ⟨method, .operatorTrue, resolved, ?_⟩
    rw [Pass.recoverBy?, if_pos (by rw [enabled, condition]; rfl)]
    exact OperatorCall.truth?_eq_some_iff.mpr ⟨_, rfl, hname, rfl⟩

theorem rewrites_of_dispatch?
    (h : dispatch? settings spelling role ⟨.call target arguments, annotations⟩ = some result) :
    Rewrites settings spelling role ⟨.call target arguments, annotations⟩ result := by
  obtain ⟨method, resolved, hrules⟩ := Option.bind_eq_some_iff.mp h
  obtain ⟨rule, _, hrule⟩ := List.exists_of_findSome?_eq_some hrules
  exact rewrites_of_recoverBy? resolved hrule

/-- A call is declined exactly when it admits no rewrite. -/
theorem dispatch?_eq_none_iff :
    dispatch? settings spelling role ⟨.call target arguments, annotations⟩ = none ↔
      ∀ result, ¬ Rewrites settings spelling role ⟨.call target arguments, annotations⟩ result := by
  constructor
  · intro hnone result hrewrites
    obtain ⟨method, rule, resolved, hrule⟩ := hrewrites.recoverBy?
    rw [dispatch?, Option.bind_eq_none_iff] at hnone
    have hrules := List.findSome?_eq_none_iff.mp (hnone method resolved) rule rule.mem_all
    rw [hrule] at hrules
    cases hrules
  · intro hforall
    rw [Option.eq_none_iff_forall_ne_some]
    intro result h
    exact hforall result (rewrites_of_dispatch? h)

end Calls

section Casts

variable {role : Role} {operand result : Expr} {type : TypeSyntax} {annotations : Annotations}

theorem rewrites_cast_iff :
    Rewrites settings spelling role ⟨.cast type operand, annotations⟩ result ↔
      settings.isEnabled .handleUnwrapping = true ∧
        Handle.method? spelling ⟨.cast type operand, annotations⟩ = some result := by
  constructor
  · intro h
    cases h with
    | methodHandle enabled refers resolves selects loads replaces =>
      exact ⟨enabled, Handle.method?_eq_some_iff.mpr
        ⟨_, _, _, _, _, _, _, _, rfl, refers, resolves, selects, loads, replaces, rfl⟩⟩
  · intro h
    obtain ⟨enabled, hmethod⟩ := h
    obtain ⟨_, _, _, _, _, _, _, _, heq, refers, resolves, selects, loads, replaces, rfl⟩ :=
      Handle.method?_eq_some_iff.mp hmethod
    cases heq
    exact .methodHandle enabled refers resolves selects loads replaces

/-- A cast is declined exactly when it admits no rewrite. -/
theorem method?_eq_none_iff :
    (settings.isEnabled .handleUnwrapping = true →
        Handle.method? spelling ⟨.cast type operand, annotations⟩ = none) ↔
      ∀ result, ¬ Rewrites settings spelling role ⟨.cast type operand, annotations⟩ result := by
  simp only [rewrites_cast_iff, not_and, Option.eq_none_iff_forall_ne_some]
  exact ⟨fun h result enabled => h enabled result, fun h enabled result => h result enabled⟩

end Casts

/-- Neither a cast nor a call with a resolved method. -/
def IsInert (e : Expr) : Prop :=
  (∀ target arguments, e.form = .call target arguments → e.method? = none) ∧
    ∀ type operand, e.form ≠ .cast type operand

theorem isInert_of_isFixed {e : Expr} (h : e.form.isFixed = true) : IsInert e := by
  constructor
  · intro target arguments hform
    rw [hform] at h
    cases h
  · intro type operand hform
    rw [hform] at h
    cases h

theorem not_rewrites_of_isInert {role : Role} {e result : Expr} (h : IsInert e) :
    ¬ Rewrites settings spelling role e result := by
  intro hrewrites
  obtain ⟨form, annotations⟩ := e
  cases form with
  | call target arguments =>
    obtain ⟨method, rule, resolved, _⟩ := hrewrites.recoverBy?
    have hnone : Annotations.method? annotations = none := h.1 target arguments rfl
    rw [hnone] at resolved
    cases resolved
  | cast type operand => exact h.2 type operand rfl
  | _ => cases hrewrites

/-- At every node the pass either makes a rewrite or finds none to make. -/
theorem recoverNode_cases (role : Role) (e : Expr) :
    Rewrites settings spelling role e (recoverNode settings spelling role e) ∨
      recoverNode settings spelling role e = e ∧
        ∀ result, ¬ Rewrites settings spelling role e result := by
  obtain ⟨form, annotations⟩ := e
  cases form with
  | call target arguments =>
    simp only [recoverNode]
    cases hdispatch : dispatch? settings spelling role ⟨.call target arguments, annotations⟩ with
    | none => exact Or.inr ⟨rfl, dispatch?_eq_none_iff.mp hdispatch⟩
    | some result => exact Or.inl (rewrites_of_dispatch? hdispatch)
  | cast type operand =>
    simp only [recoverNode]
    split
    · rename_i enabled
      cases hmethod : Handle.method? spelling ⟨.cast type operand, annotations⟩ with
      | none => exact Or.inr ⟨rfl, method?_eq_none_iff.mp fun _ => hmethod⟩
      | some result => exact Or.inl (rewrites_cast_iff.mpr ⟨enabled, hmethod⟩)
    · rename_i disabled
      exact Or.inr ⟨rfl, method?_eq_none_iff.mp fun enabled => absurd enabled disabled⟩
  | _ => exact Or.inr ⟨rfl, fun _ => not_rewrites_of_isInert (isInert_of_isFixed rfl)⟩

end Pass

end OperatorRecovery
