import OperatorRecovery.Proofs.Nodes
import OperatorRecovery.Proofs.Rewrites

/-!
Recovered operations mean the calls that they replace. Lowering turns an operation
that carries a method back into a call of it. Where a run recovers operators alone,
lowering its output gives the input again, up to the targets of the calls that were
recovered and the markers of their arguments: the operands stand in order, the calls
that were declined are still there, and every operation is the one that its method
is named for.
-/

namespace OperatorRecovery.Lowering

/-- The increment and decrement operators of `decimal`. -/
def stepsDecimal (method : Method) : Bool :=
  (method.name == UnaryOperator.increment.metadataName ||
    method.name == UnaryOperator.decrement.metadataName) &&
    method.declaringType.isBuiltin .decimal

def isOperation (e : Expr) : Bool :=
  match e.form with
  | .binary _ _ _ | .unary _ _ | .cast _ _ => true
  | _ => false

/-- The operands that an operation passes to its method. -/
def operands? (method : Method) : Form ε → Option (List ε)
  | .binary _ left right => some (if stepsDecimal method then [left] else [left, right])
  | .unary _ operand | .cast _ operand => some [operand]
  | _ => none

theorem operands?_map (method : Method) (g : ε → δ) (form : Form ε) :
    operands? method (form.map g) = (operands? method form).map (List.map g) := by
  cases form with
  | binary op left right =>
    cases hstep : stepsDecimal method <;> simp [operands?, Form.map, hstep]
  | _ => rfl

section Lower

variable (placeholder : Expr)

def lowerNode (form : Form Expr) (annotations : Annotations) : Expr :=
  match (Annotations.method? annotations).bind fun method => operands? method form with
  | some operands => ⟨.call placeholder operands, annotations⟩
  | none => ⟨form, annotations⟩

/-- Makes every operation with a method a call of it. -/
def lower : Expr → Expr := Expr.fold (lowerNode placeholder)

theorem lower_mk (form : Form Expr) (annotations : Annotations) :
    lower placeholder ⟨form, annotations⟩ =
      lowerNode placeholder (form.map (lower placeholder)) annotations := by
  rw [lower, Expr.fold_mk]

variable {placeholder}

theorem lower_of_operands {form : Form Expr} {annotations : Annotations} {method : Method}
    {operands : List Expr} (resolved : Annotations.method? annotations = some method)
    (h : operands? method form = some operands) :
    lower placeholder ⟨form, annotations⟩ =
      ⟨.call placeholder (operands.map (lower placeholder)), annotations⟩ := by
  rw [lower_mk, lowerNode, resolved, Option.bind_some, operands?_map, h]
  rfl

theorem lowerNode_eq_self {form : Form Expr} {annotations : Annotations}
    (h : isOperation ⟨form, annotations⟩ = true → Annotations.method? annotations = none) :
    lowerNode placeholder form annotations = ⟨form, annotations⟩ := by
  have hnone : ((Annotations.method? annotations).bind fun method => operands? method form) =
      none := by
    cases form with
    | binary | unary | cast => rw [h rfl, Option.bind_none]
    | _ => exact Option.bind_eq_none_iff.mpr fun _ _ => rfl
  rw [lowerNode, hnone]

/-- A node is kept or becomes a call. -/
theorem lowerNode_cases (form : Form Expr) (annotations : Annotations) :
    lowerNode placeholder form annotations = ⟨form, annotations⟩ ∨
      ∃ operands, lowerNode placeholder form annotations =
        ⟨.call placeholder operands, annotations⟩ := by
  unfold lowerNode
  split
  · rename_i operands _
    exact Or.inr ⟨operands, rfl⟩
  · exact Or.inl rfl

/-- Lowering keeps the markers of arguments where they are. -/
theorem operand_lower (argument : Expr) :
    lower placeholder (OperatorCall.operand argument) =
      OperatorCall.operand (lower placeholder argument) := by
  by_cases hmarked : ∃ inner marker, argument = ⟨.directed .readonly inner, marker⟩
  · obtain ⟨inner, marker, rfl⟩ := hmarked
    rw [lower_mk, lowerNode_eq_self fun h => by cases h]
    rfl
  · have hargument : OperatorCall.operand argument = argument :=
      OperatorCall.operand_eq_self fun inner marker h => hmarked ⟨inner, marker, h⟩
    rw [hargument]
    symm
    apply OperatorCall.operand_eq_self
    intro inner marker hlower
    obtain ⟨form, annotations⟩ := argument
    rw [lower_mk] at hlower
    rcases @lowerNode_cases placeholder (form.map (lower placeholder)) annotations with
      hkept | ⟨operands, hcall⟩
    · rw [hkept] at hlower
      cases form <;> simp only [Form.map, Expr.mk.injEq, Form.directed.injEq, reduceCtorEq,
        false_and] at hlower
      rename_i direction inner'
      exact hmarked ⟨inner', annotations, by rw [hlower.1.1]⟩
    · rw [hcall] at hlower
      cases hlower

end Lower

section Normal

variable (settings : Settings) (placeholder : Expr)

/-- Whether a call of the method with so many arguments is an operation of the language version
that an enabled rule is for. -/
def isRecovered (method : Method) (arity : Nat) : Bool :=
  match arity with
  | 1 =>
    settings.isEnabled .unaryOperators && (UnaryOperator.ofMetadataName? method.name).isSome ||
    settings.isEnabled .explicitConversion && method.name == OperatorCall.explicitName
  | 2 =>
    settings.isEnabled .binaryOperators &&
      (BinaryOperator.ofMetadataName? method.name).any fun op =>
        op != .unsignedShiftRight || decide (LanguageVersion.csharp11 ≤ settings.languageVersion)
  | _ => false

/-- Whether the node is a call that is recovered. -/
def accepts (e : Expr) : Bool :=
  match e.form with
  | .call _ arguments => e.method?.any fun method => isRecovered settings method arguments.length
  | _ => false

def normalNode (form : Form (Expr × Expr)) (annotations : Annotations) : Expr :=
  match form with
  | .call _ arguments =>
    if accepts settings ⟨form.map (·.1), annotations⟩ then
      ⟨.call placeholder (arguments.map fun argument => OperatorCall.operand argument.2),
        annotations⟩
    else ⟨form.map (·.2), annotations⟩
  | _ => ⟨form.map (·.2), annotations⟩

/-- Forgets the targets of the calls that are accepted and the markers of their arguments. -/
def normal : Expr → Expr := Expr.para (normalNode settings placeholder)

variable {settings placeholder}

theorem normal_call {target : Expr} {arguments : List Expr} {annotations : Annotations}
    (h : accepts settings ⟨.call target arguments, annotations⟩ = true) :
    normal settings placeholder ⟨.call target arguments, annotations⟩ =
      ⟨.call placeholder (arguments.map fun argument =>
        OperatorCall.operand (normal settings placeholder argument)), annotations⟩ := by
  rw [normal, Expr.para_mk, normalNode.eq_def]
  simp only [Form.map, List.map_map, Function.comp_def, List.map_id']
  rw [if_pos h]

theorem normal_of_not_accepts {form : Form Expr} {annotations : Annotations}
    (h : accepts settings ⟨form, annotations⟩ = false) :
    normal settings placeholder ⟨form, annotations⟩ =
      ⟨form.map (normal settings placeholder), annotations⟩ := by
  have hself :
      (form.map fun e => (e, normal settings placeholder e)).map (·.1) = form := by
    rw [Form.map_map]
    exact Form.map_eq_self form fun _ _ => rfl
  have hparts : (form.map fun e => (e, normal settings placeholder e)).map (·.2) =
      form.map (normal settings placeholder) := Form.map_map _ _ form
  rw [normal, Expr.para_mk, ← normal, normalNode.eq_def]
  split
  · rw [hself, h]
    exact congrArg (Expr.mk · annotations) hparts
  · exact congrArg (Expr.mk · annotations) hparts

theorem isRecovered_one_iff {method : Method} : isRecovered settings method 1 = true ↔
    (settings.isEnabled .unaryOperators = true ∧
        ∃ op, UnaryOperator.ofMetadataName? method.name = some op) ∨
      settings.isEnabled .explicitConversion = true ∧
        method.name = OperatorCall.explicitName := by
  rw [isRecovered, Bool.or_eq_true, Bool.and_eq_true, Bool.and_eq_true, Option.isSome_iff_exists,
    beq_iff_eq]

theorem isRecovered_two_iff {method : Method} : isRecovered settings method 2 = true ↔
    settings.isEnabled .binaryOperators = true ∧
      ∃ op, BinaryOperator.ofMetadataName? method.name = some op ∧
        OperatorCall.isAvailable settings op = true := by
  rw [isRecovered, Bool.and_eq_true, Option.any_eq_true]
  rfl

theorem accepts_call_iff {target : Expr} {arguments : List Expr} {annotations : Annotations} :
    accepts settings ⟨.call target arguments, annotations⟩ = true ↔
      ∃ method, Annotations.method? annotations = some method ∧
        isRecovered settings method arguments.length = true := Option.any_eq_true _ _

theorem accepts_mapRoles (g : Role → Expr → Expr) (form : Form Expr) (annotations : Annotations) :
    accepts settings ⟨form.mapRoles g, annotations⟩ = accepts settings ⟨form, annotations⟩ := by
  cases form with
  | call target arguments =>
    rw [Bool.eq_iff_iff, Form.mapRoles, Form.mapSlots, accepts_call_iff, accepts_call_iff,
      List.length_mapIdx]
  | _ => rfl

end Normal

section Runs

open Pass

variable {settings : Settings} {spelling : Spelling} {placeholder : Expr} {role : Role}

/-- No rule is enabled but those of operators and conversions. -/
def OnlyOperators (settings : Settings) : Prop :=
  ∀ rule, settings.isEnabled rule = true →
    rule = .binaryOperators ∨ rule = .unaryOperators ∨ rule = .explicitConversion

/-- What an operation is when its method is named for it. -/
inductive Denotes (spelling : Spelling) (method : Method) : Form Expr → Prop
  | binary {op : BinaryOperator} {left right : Expr}
    (named : BinaryOperator.ofMetadataName? method.name = some op) :
    Denotes spelling method (.binary op left right)
  | unary {op : UnaryOperator} {operand : Expr}
    (named : UnaryOperator.ofMetadataName? method.name = some op)
    (direct : stepsDecimal method = false) : Denotes spelling method (.unary op operand)
  | increment {operand : Expr} (named : method.name = UnaryOperator.increment.metadataName)
    (steps : stepsDecimal method = true) :
    Denotes spelling method (.binary .add operand (.ofForm (.literal (.decimal 1))))
  | decrement {operand : Expr} (named : method.name = UnaryOperator.decrement.metadataName)
    (steps : stepsDecimal method = true) :
    Denotes spelling method (.binary .subtract operand (.ofForm (.literal (.decimal 1))))
  | conversion {operand : Expr} (named : method.name = OperatorCall.explicitName) :
    Denotes spelling method (.cast (spelling method.returnType) operand)

/-- Where only operators are recovered, there are three rewrites to consider. -/
theorem OnlyOperators.rewrites_cases (only : OnlyOperators settings) {motive : Expr → Expr → Prop}
    (binary : ∀ {target left right annotations method op},
      settings.isEnabled .binaryOperators = true → Annotations.method? annotations = some method →
      BinaryOperator.ofMetadataName? method.name = some op →
      OperatorCall.isAvailable settings op = true →
      motive ⟨.call target [left, right], annotations⟩
        ⟨.binary op (OperatorCall.operand left) (OperatorCall.operand right), annotations⟩)
    (unary : ∀ {target argument annotations method op},
      settings.isEnabled .unaryOperators = true → Annotations.method? annotations = some method →
      UnaryOperator.ofMetadataName? method.name = some op →
      motive ⟨.call target [argument], annotations⟩
        ⟨OperatorCall.unaryForm method op (OperatorCall.operand argument), annotations⟩)
    (conversion : ∀ {target argument annotations method},
      settings.isEnabled .explicitConversion = true →
      Annotations.method? annotations = some method → method.name = OperatorCall.explicitName →
      motive ⟨.call target [argument], annotations⟩
        ⟨.cast (spelling method.returnType) (OperatorCall.operand argument), annotations⟩)
    {e result : Expr} (h : Rewrites settings spelling role e result) : motive e result := by
  have hdisabled (rule : Rule) (enabled : settings.isEnabled rule = true)
      (hother : ¬ (rule = .binaryOperators ∨ rule = .unaryOperators ∨
        rule = .explicitConversion)) : motive e result := absurd (only rule enabled) hother
  cases h with
  | binary enabled resolved named available => exact binary enabled resolved named available
  | unary enabled resolved named => exact unary enabled resolved named
  | conversion enabled resolved named => exact conversion enabled resolved named
  | interpolation enabled =>
    exact hdisabled .stringInterpolation (Bool.and_eq_true_iff.mp enabled).1 (by decide)
  | concatenation enabled => exact hdisabled _ enabled (by decide)
  | typeHandle enabled => exact hdisabled _ enabled (by decide)
  | fieldHandle enabled => exact hdisabled _ enabled (by decide)
  | instantiation enabled => exact hdisabled _ enabled (by decide)
  | truthTest enabled => exact hdisabled _ enabled (by decide)
  | methodHandle enabled => exact hdisabled _ enabled (by decide)

/-- No binary operator steps a decimal. -/
theorem stepsDecimal_of_binary {method : Method} {op : BinaryOperator}
    (named : BinaryOperator.ofMetadataName? method.name = some op) :
    stepsDecimal method = false := by
  rw [stepsDecimal, ← BinaryOperator.metadataName_of_ofMetadataName? named]
  cases op <;> rfl

theorem stepsDecimal_of_unary {method : Method} {op : UnaryOperator}
    (named : UnaryOperator.ofMetadataName? method.name = some op) :
    stepsDecimal method =
      ((OperatorCall.decimalStep? op).isSome && method.declaringType.isBuiltin .decimal) := by
  rw [stepsDecimal, ← UnaryOperator.metadataName_of_ofMetadataName? named]
  cases op <;> rfl

theorem operands?_unaryForm {method : Method} {op : UnaryOperator}
    (named : UnaryOperator.ofMetadataName? method.name = some op) (operand : Expr) :
    operands? method (OperatorCall.unaryForm method op operand) = some [operand] := by
  have hsteps := stepsDecimal_of_unary named
  unfold OperatorCall.unaryForm
  split
  · rename_i step hdecimal hstep
    rw [hstep, hdecimal] at hsteps
    rw [operands?, hsteps]
    rfl
  · rfl

theorem denotes_unaryForm {method : Method} {op : UnaryOperator}
    (named : UnaryOperator.ofMetadataName? method.name = some op) (operand : Expr) :
    Denotes spelling method (OperatorCall.unaryForm method op operand) := by
  have hsteps := stepsDecimal_of_unary named
  have hname := UnaryOperator.metadataName_of_ofMetadataName? named
  unfold OperatorCall.unaryForm
  split
  · rename_i step hdecimal hstep
    rw [hstep, hdecimal] at hsteps
    cases op <;> simp only [OperatorCall.decimalStep?, Option.some.injEq, reduceCtorEq] at hstep
    · rw [← hstep]
      exact .increment hname.symm hsteps
    · rw [← hstep]
      exact .decrement hname.symm hsteps
  · rename_i hdirect
    refine .unary named ?_
    rw [hsteps]
    cases hstep : OperatorCall.decimalStep? op with
    | none => rfl
    | some step =>
      cases hdecimal : method.declaringType.isBuiltin .decimal with
      | false => rfl
      | true => exact absurd hstep (hdirect step hdecimal)

/-- Lowering the result of a rewrite gives back the call that was accepted. -/
theorem lower_rewrites (only : OnlyOperators settings) {e result : Expr}
    (h : Rewrites settings spelling role e result) :
    accepts settings e = true ∧
      lower placeholder result = ⟨.call placeholder (e.arguments.map fun argument =>
        OperatorCall.operand (lower placeholder argument)), e.annotations⟩ := by
  refine only.rewrites_cases (motive := fun e result => accepts settings e = true ∧
    lower placeholder result = ⟨.call placeholder (e.arguments.map fun argument =>
      OperatorCall.operand (lower placeholder argument)), e.annotations⟩) ?_ ?_ ?_ h
  · intro target left right annotations method op enabled resolved named available
    constructor
    · exact accepts_call_iff.mpr ⟨method, resolved,
        isRecovered_two_iff.mpr ⟨enabled, op, named, available⟩⟩
    · have hoperands : operands? method (.binary op (OperatorCall.operand left)
          (OperatorCall.operand right)) =
          some [OperatorCall.operand left, OperatorCall.operand right] := by
        rw [operands?, stepsDecimal_of_binary named]
        rfl
      rw [lower_of_operands resolved hoperands]
      simp only [List.map_cons, List.map_nil, operand_lower]
      rfl
  · intro target argument annotations method op enabled resolved named
    constructor
    · exact accepts_call_iff.mpr ⟨method, resolved,
        isRecovered_one_iff.mpr (Or.inl ⟨enabled, op, named⟩)⟩
    · rw [lower_of_operands resolved (operands?_unaryForm named _)]
      simp only [List.map_cons, List.map_nil, operand_lower]
      rfl
  · intro target argument annotations method enabled resolved named
    constructor
    · exact accepts_call_iff.mpr ⟨method, resolved,
        isRecovered_one_iff.mpr (Or.inr ⟨enabled, named⟩)⟩
    · rw [lower_of_operands resolved rfl]
      simp only [List.map_cons, List.map_nil, operand_lower]
      rfl

theorem exists_rewrites_of_accepts {target : Expr} {arguments : List Expr}
    {annotations : Annotations}
    (h : accepts settings ⟨.call target arguments, annotations⟩ = true) :
    ∃ result, Rewrites settings spelling role ⟨.call target arguments, annotations⟩ result := by
  obtain ⟨method, resolved, hrecovered⟩ := accepts_call_iff.mp h
  match arguments with
  | [argument] =>
    rcases isRecovered_one_iff.mp hrecovered with ⟨enabled, op, named⟩ | ⟨enabled, named⟩
    · exact ⟨_, .unary enabled resolved named⟩
    · exact ⟨_, .conversion enabled resolved named⟩
  | [left, right] =>
    obtain ⟨enabled, op, named, available⟩ := isRecovered_two_iff.mp hrecovered
    exact ⟨_, .binary enabled resolved named available⟩
  | [] | _ :: _ :: _ :: _ => cases hrecovered

/-- The calls that are accepted are those that a rule accepts. -/
theorem accepts_eq_dispatch? (only : OnlyOperators settings) (spelling : Spelling) (role : Role)
    (target : Expr) (arguments : List Expr) (annotations : Annotations) :
    accepts settings ⟨.call target arguments, annotations⟩ =
      (dispatch? settings spelling role ⟨.call target arguments, annotations⟩).isSome := by
  cases hdispatch : dispatch? settings spelling role ⟨.call target arguments, annotations⟩ with
  | some result => exact (@lower_rewrites _ _ .hole _ only _ _ (rewrites_of_dispatch? hdispatch)).1
  | none =>
    rw [Option.isSome_none, Bool.eq_false_iff]
    intro haccepts
    obtain ⟨result, hrewrites⟩ := @exists_rewrites_of_accepts _ spelling role _ _ _ haccepts
    exact dispatch?_eq_none_iff.mp hdispatch result hrewrites

/-- Lowering the output of a run over an expression gives its normal form. -/
theorem lower_recoverIn (only : OnlyOperators settings) {e : Expr}
    (hplain : Expr.Every (fun _ e => isOperation e = true → e.method? = none) role e) :
    lower placeholder (e.recoverIn settings spelling role) =
      normal settings placeholder e := by
  induction e using Expr.induction_on_parts generalizing role with
  | step e ih =>
    obtain ⟨form, annotations⟩ := e
    have hparts : ∀ slot ∈ form.slots, lower placeholder
        (slot.2.recoverIn settings spelling slot.1) = normal settings placeholder slot.2 :=
      fun slot hslot => ih slot.2 (Form.mem_parts_of_mem_slots hslot) (hplain.slots slot hslot)
    rw [Expr.recoverIn_mk, ← Form.mapRoles]
    rcases @recoverNode_cases settings spelling role ⟨form.mapRoles fun role part =>
      part.recoverIn settings spelling role, annotations⟩ with hrewrites | ⟨hself, hdeclined⟩
    · obtain ⟨haccepts, hlower⟩ := @lower_rewrites _ _ placeholder _ only _ _ hrewrites
      rw [accepts_mapRoles] at haccepts
      rw [hlower]
      cases form with
      | call target arguments =>
        rw [normal_call haccepts]
        simp only [Expr.arguments, Form.mapRoles, Form.mapSlots, Form.mapIdx_const, Form.arguments,
          List.map_map]
        congr 2
        apply List.map_congr_left
        intro argument hargument
        exact congrArg OperatorCall.operand
          (hparts _ (Form.mem_slots_of_mem_arguments hargument))
      | _ => cases haccepts
    · have haccepts : accepts settings ⟨form, annotations⟩ = false := by
        cases form with
        | call target arguments =>
          rw [Bool.eq_false_iff, ← accepts_mapRoles]
          intro haccepts
          obtain ⟨result, hrewrites⟩ := @exists_rewrites_of_accepts _ _ role _ _ _ haccepts
          exact hdeclined result hrewrites
        | _ => rfl
      have hmap : (form.mapRoles fun role part => part.recoverIn settings spelling role).map
          (lower placeholder) = form.map (normal settings placeholder) := by
        rw [Form.map_mapRoles, Form.map_eq_mapRoles]
        exact Form.mapRoles_congr form hparts
      rw [hself, lower_mk, hmap, normal_of_not_accepts haccepts]
      apply lowerNode_eq_self
      intro hoperation
      apply hplain.self
      cases form <;> first | rfl | cases hoperation

/-- A node is an operation that its method is named for, if it is an operation with a method. -/
def IsDenoted (spelling : Spelling) (e : Expr) : Prop :=
  isOperation e = true → ∀ method, e.method? = some method → Denotes spelling method e.form

theorem every_isDenoted_literal (value : Literal) :
    Expr.Every (fun _ => IsDenoted spelling) role (.ofForm (.literal value)) := by
  rw [Expr.ofForm, Expr.every_mk]
  refine ⟨?_, List.forall_mem_nil _⟩
  intro hoperation
  cases hoperation

theorem every_isDenoted_rewrites (only : OnlyOperators settings) {e result : Expr}
    (h : Rewrites settings spelling role e result)
    (harguments : ∀ argument ∈ e.arguments,
      Expr.Every (fun _ => IsDenoted spelling) .argument argument) :
    Expr.Every (fun _ => IsDenoted spelling) role result := by
  have hdenoted {form : Form Expr} {annotations : Annotations} {method : Method}
      (resolved : Annotations.method? annotations = some method)
      (denotes : Denotes spelling method form) : IsDenoted spelling ⟨form, annotations⟩ := by
    intro _ method' resolved'
    cases resolved.symm.trans resolved'
    exact denotes
  revert harguments
  refine only.rewrites_cases (motive := fun e result => (∀ argument ∈ e.arguments,
      Expr.Every (fun _ => IsDenoted spelling) .argument argument) →
    Expr.Every (fun _ => IsDenoted spelling) role result) ?_ ?_ ?_ h
  · intro target left right annotations method op enabled resolved named available harguments
    rw [Expr.every_mk]
    refine ⟨hdenoted resolved (.binary named), ?_⟩
    simp only [Form.slots, List.forall_mem_cons]
    exact ⟨(harguments left List.mem_cons_self).operand id,
      (harguments right (List.mem_cons_of_mem _ List.mem_cons_self)).operand id,
        List.forall_mem_nil _⟩
  · intro target argument annotations method op enabled resolved named harguments
    have hoperand := (harguments argument List.mem_cons_self).operand id
    rw [Expr.every_mk]
    refine ⟨hdenoted resolved (denotes_unaryForm named _), ?_⟩
    unfold OperatorCall.unaryForm
    split
    · simp only [Form.slots, List.forall_mem_cons]
      exact ⟨hoperand, every_isDenoted_literal _, List.forall_mem_nil _⟩
    · simp only [Form.slots, List.forall_mem_singleton]
      exact hoperand
  · intro target argument annotations method enabled resolved named harguments
    rw [Expr.every_mk]
    refine ⟨hdenoted resolved (.conversion named), ?_⟩
    simp only [Form.slots, List.forall_mem_singleton]
    exact (harguments argument List.mem_cons_self).operand id

theorem every_isDenoted_recoverIn (only : OnlyOperators settings) {e : Expr}
    (hplain : Expr.Every (fun _ e => isOperation e = true → e.method? = none) role e) :
    Expr.Every (fun _ => IsDenoted spelling) role (e.recoverIn settings spelling role) := by
  induction e using Expr.induction_on_parts generalizing role with
  | step e ih =>
    obtain ⟨form, annotations⟩ := e
    have hparts : ∀ slot ∈ (form.mapRoles fun role part =>
        part.recoverIn settings spelling role).slots,
        Expr.Every (fun _ => IsDenoted spelling) slot.1 slot.2 := by
      rw [Form.slots_mapRoles, List.forall_mem_map]
      intro slot hslot
      exact ih slot.2 (Form.mem_parts_of_mem_slots hslot) (hplain.slots slot hslot)
    rw [Expr.recoverIn_mk, ← Form.mapRoles]
    rcases @recoverNode_cases settings spelling role ⟨form.mapRoles fun role part =>
      part.recoverIn settings spelling role, annotations⟩ with hrewrites | ⟨hself, _⟩
    · exact every_isDenoted_rewrites only hrewrites (Expr.every_arguments hparts)
    · rw [hself, Expr.every_mk]
      refine ⟨fun hoperation method resolved => ?_, hparts⟩
      have hnone : Annotations.method? annotations = none := by
        apply hplain.self
        cases form <;> first | rfl | cases hoperation
      cases hnone.symm.trans resolved

/-- A run that recovers operators alone means what its input means: its output lowers to the
normal form of the input, and every operation in it is the one that its method is named for. The
calls whose targets the normal form forgets are those that an enabled rule accepts. -/
theorem lower_recover (settings : Settings) (spelling : Spelling) (placeholder e : Expr)
    (only : OnlyOperators settings)
    (hplain : ∀ node ∈ e.nodes .expression, isOperation node.2 = true → node.2.method? = none) :
    lower placeholder (e.recover settings spelling) = normal settings placeholder e ∧
      (∀ node ∈ (e.recover settings spelling).nodes .expression, IsDenoted spelling node.2) ∧
      ∀ role target arguments annotations,
        accepts settings ⟨.call target arguments, annotations⟩ =
          (dispatch? settings spelling role ⟨.call target arguments, annotations⟩).isSome :=
  ⟨lower_recoverIn only hplain, every_isDenoted_recoverIn only hplain,
    accepts_eq_dispatch? only spelling⟩

/-- All rules but those of operators and conversions are disabled. -/
def operatorsOnly : Settings :=
  ⟨.latest, .empty, .ofList [.stringConcat, .handleUnwrapping, .genericInstantiation,
    .stringInterpolation, .operatorTrue], true⟩

theorem onlyOperators_operatorsOnly : OnlyOperators operatorsOnly := by
  intro rule enabled
  cases rule <;> first | decide | cases enabled

def addition : Method := ⟨"op_Addition", .named "N" "C" [], true, [], .named "N" "C" [], []⟩

def increment : Method := ⟨"op_Increment", .builtin .decimal, true, [], .builtin .decimal, []⟩

def conversion : Method :=
  ⟨"op_Explicit", .named "N" "C" [], true, [], .builtin .decimal, []⟩

/-- `op_Addition(in op_Increment(x), op_Explicit(op_Addition(y)))`, of which the innermost
call has too few arguments for an operator. -/
def steppedSum : Expr :=
  .staticCall addition
    [.ofForm (.directed .readonly (.staticCall increment [.ofForm (.identifier "x")])),
      .staticCall conversion [.staticCall addition [.ofForm (.identifier "y")]]]

/-- `x + 1m + (decimal)op_Addition(y)`. -/
def recoveredSum : Expr :=
  let stepped : Expr :=
    ⟨.binary .add (.ofForm (.identifier "x")) (.ofForm (.literal (.decimal 1))),
      [.symbol (.method increment)]⟩
  let converted : Expr :=
    ⟨.cast (.keyword "decimal") (.staticCall addition [.ofForm (.identifier "y")]),
      [.symbol (.method conversion)]⟩
  ⟨.binary .add stepped converted, [.symbol (.method addition)]⟩

theorem lower_recover_steppedSum :
    let spelling := SpellingStyle.spell ⟨true, false⟩
    (OnlyOperators operatorsOnly ∧ ∀ node ∈ steppedSum.nodes .expression,
      isOperation node.2 = true → node.2.method? = none) ∧
    steppedSum.recover operatorsOnly spelling = recoveredSum ∧
    lower .hole recoveredSum = normal operatorsOnly .hole steppedSum ∧
    (∀ node ∈ recoveredSum.nodes .expression, IsDenoted spelling node.2) ∧
    ∀ role target arguments annotations,
      accepts operatorsOnly ⟨.call target arguments, annotations⟩ =
        (dispatch? operatorsOnly spelling role ⟨.call target arguments, annotations⟩).isSome := by
  intro spelling
  have hplain : ∀ node ∈ steppedSum.nodes .expression,
      isOperation node.2 = true → node.2.method? = none := by decide
  have hrecover : steppedSum.recover operatorsOnly spelling = recoveredSum := by rfl
  have hlower := lower_recover operatorsOnly spelling .hole steppedSum
    onlyOperators_operatorsOnly hplain
  rw [hrecover] at hlower
  exact ⟨⟨onlyOperators_operatorsOnly, hplain⟩, hrecover, hlower⟩

end Runs

end OperatorRecovery.Lowering
