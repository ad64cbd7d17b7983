import OperatorRecovery.Surgery
import OperatorRecovery.Proofs.RuleOrder
import OperatorRecovery.Proofs.TruthTests

/-!
The rules as they work on a tree in place. A rule looks at a node, takes its arguments out or
detaches an expression inside it, and puts together what comes in the place of the node. It may
give up at several points, some of them behind the first move, when the node has a hole already.
Each rule leaves what its recovery gives, and the node itself where there is no recovery: the
late points are not reached.
-/

namespace OperatorRecovery

/-- A step that works on an expression in place and gives a value. -/
abbrev Edit (α : Type) := StateM Expr α

namespace Edit

open OperatorRecovery.Expr

/-- The value and what the expression has become. -/
def perform {α : Type} (edit : Edit α) (e : Expr) : α × Expr := (StateT.run edit e).run

section Moves

/-- Takes out what a path leads to and leaves a hole there. -/
def detach (path : Path) : Edit (Option Expr) :=
  modifyGet fun e =>
    match e.detach? path with
    | some (found, rest) => (some found, rest)
    | none => (none, e)

/-- Takes out the arguments and leaves none. -/
def takeArguments : Edit (List Expr) := modifyGet fun e => (e.arguments, e.dropArguments)

/-- Puts another expression in the place of the whole. -/
def become (after : Expr) : Edit Bool := do
  set after
  return true

/-- Puts another expression in the place of the whole and hands the annotations on to it. -/
def supersede (replacement : Expr) : Edit Bool := do
  become (replacement.annotate (← get).annotations)

section Performing

variable {α β : Type} (e : Expr)

@[simp] theorem perform_pure (a : α) : perform (pure a) e = (a, e) := rfl

theorem perform_bind (edit : Edit β) (next : β → Edit α) :
    perform (edit >>= next) e = perform (next (perform edit e).1) (perform edit e).2 := rfl

@[simp] theorem perform_get_bind (next : Expr → Edit α) :
    perform (get >>= next) e = perform (next e) e := rfl

@[simp] theorem perform_takeArguments_bind (next : List Expr → Edit α) :
    perform (takeArguments >>= next) e = perform (next e.arguments) e.dropArguments := rfl

theorem perform_detach_bind {path : Path} {found : Expr} (h : e.descendant? path = some found)
    (next : Option Expr → Edit α) :
    perform (detach path >>= next) e = perform (next (some found)) (e.detachAt path) := by
  have hdetach : perform (detach path) e = (some found, e.detachAt path) := by
    change (match e.detach? path with
      | some (found, rest) => (some found, rest)
      | none => (none, e)) = _
    rw [detach?, h]
    rfl
  rw [perform_bind, hdetach]

@[simp] theorem perform_become (after : Expr) : perform (become after) e = (true, after) := rfl

@[simp] theorem perform_supersede (replacement : Expr) :
    perform (supersede replacement) e = (true, replacement.annotate e.annotations) := rfl

@[simp] theorem perform_ite (c : Prop) [Decidable c] (first second : Edit α) :
    perform (if c then first else second) e =
      if c then perform first e else perform second e := by
  split <;> rfl

end Performing

/-- Only what is inside changes, so the annotations stay. -/
theorem annotations_detachAt (i : Nat) (path : Path) (e : Expr) :
    (e.detachAt (i :: path)).annotations = e.annotations := rfl

end Moves

section Rules

open OperatorCall

variable (settings : Settings) (spelling : Spelling) (method : Method)

def concatenate : Edit Bool := do
  if !Concatenation.accepts method then return false
  let arguments := (← get).arguments
  if arguments.length < 2 || arguments.any isNamed then return false
  if !(arguments.take 2).any Concatenation.isString then return false
  match ← takeArguments with
  | [] => return false
  | first :: rest =>
    supersede (Concatenation.chain first rest)

def unwrapType : Edit Bool := do
  let call ← get
  let some m := Pattern.match? Handle.typePattern call | return false
  let some path := m.capture? "type" | return false
  let some target ← detach path | return false
  become (target.inheritInstructions (← get).annotations)

/-- The reference that names the field on the type beside the token, if there is one. There is
no answer where that field is not known. -/
def qualifiedField? (m : Match) (call : Expr) : Option (Option Expr) :=
  match m.capture? "declaringType" with
  | none => some none
  | some path => do
    let declaringType ← (call.descendant? path).bind Handle.typeOfOperand?
    let reference ← Handle.captured? m call "reference"
    let field ← reference.field?
    return some (Handle.memberOf declaringType field.name reference)

def requalify (token : Expr) : Option Expr → Expr
  | some reference => Handle.withReference token reference
  | none => token

def unwrapField : Edit Bool := do
  let call ← get
  let some m := Pattern.match? Handle.fieldPattern call | return false
  let some path := m.capture? "token" | return false
  let some qualified := qualifiedField? m call | return false
  let some token ← detach path | return false
  become ((requalify token qualified).inheritInstructions (← get).annotations)

def unwrapMethod : Edit Bool := do
  let cast ← get
  let some m := Pattern.match? Handle.methodPattern cast | return false
  let some path := m.capture? "token" | return false
  let qualified := Handle.qualifiedMethod? spelling m cast
  let some token ← detach path | return false
  become ((requalify token qualified).annotate (← get).annotations)

def instantiate : Edit Bool := do
  if method.fullName != Instantiation.methodName then return false
  if !(← get).arguments.isEmpty then return false
  let some parameter := Instantiation.parameter? method | return false
  supersede (.ofForm (.creation (spelling (.parameter parameter)) []))

def interpolate : Edit Bool := do
  if method.fullName != Interpolation.methodName then return false
  let format :: arguments := (← get).arguments | return false
  if arguments.isEmpty then return false
  let some text := Interpolation.format? format | return false
  if arguments.any containsStringLiteral then return false
  if (format :: arguments).any isNamed then return false
  if Interpolation.passesArray method (format :: arguments).length then return false
  let .ok segments := FormatPlan.plan text.toList arguments.length | return false
  let taken ← takeArguments
  supersede (.ofForm (.interpolated (FormatPlan.build segments (taken.drop 1))))

def replaceBinary : Edit Bool := do
  if (← get).arguments.length != 2 then return false
  let some op := BinaryOperator.ofMetadataName? method.name | return false
  if !isAvailable settings op then return false
  match (← takeArguments).map operand with
  | left :: right :: _ =>
    supersede (.ofForm (.binary op left right))
  | _ => return false

def replaceUnary : Edit Bool := do
  if (← get).arguments.length != 1 then return false
  let some op := UnaryOperator.ofMetadataName? method.name | return false
  let some argument := (← takeArguments).getLast? | return false
  supersede (.ofForm (unaryForm method op (operand argument)))

def convert : Edit Bool := do
  if method.name != explicitName then return false
  if (← get).arguments.length != 1 then return false
  let some argument := (← takeArguments).getLast? | return false
  supersede (.ofForm (.cast (spelling method.returnType) (operand argument)))

def isTrueCall (call : Expr) : Bool :=
  match call.form with
  | .call _ [_] => isTrueTest call.annotations
  | _ => false

theorem sizeOf_form_operand_le (argument : Expr) :
    sizeOf (operand argument).form ≤ sizeOf argument.form := by
  obtain ⟨form, annotations⟩ := argument
  unfold operand
  split
  next inner hform =>
    cases hform
    obtain ⟨form, annotations⟩ := inner
    simp only [Form.directed.sizeOf_spec, Expr.mk.sizeOf_spec]
    omega
  next => exact Nat.le_refl _

theorem sizeOf_form_lt_of_mem_arguments {call argument : Expr} (h : argument ∈ call.arguments) :
    sizeOf argument.form < sizeOf call.form := by
  have hlt := List.sizeOf_lt_of_mem h
  obtain ⟨form, annotations⟩ := argument
  obtain ⟨callForm, callAnnotations⟩ := call
  rw [Expr.mk.sizeOf_spec] at hlt
  cases callForm with
  | call target arguments =>
    change sizeOf form < sizeOf (Form.call target arguments)
    simp only [Expr.arguments, Form.arguments] at hlt
    rw [Form.call.sizeOf_spec]
    omega
  | creation type arguments =>
    change sizeOf form < sizeOf (Form.creation type arguments)
    simp only [Expr.arguments, Form.arguments] at hlt
    rw [Form.creation.sizeOf_spec]
    omega
  | _ => cases h

/-- The argument takes the place of the call, as long as the call tests for truth. -/
def collapseTests (call : Expr) : Expr :=
  if isTrueCall call then
    match _ : call.arguments.getLast? with
    | some argument => collapseTests ((operand argument).inheritInstructions call.annotations)
    | none => call.dropArguments
  else call
termination_by sizeOf call.form
decreasing_by
  have hmem := List.mem_of_getLast? ‹_›
  exact Nat.lt_of_le_of_lt (sizeOf_form_operand_le _) (sizeOf_form_lt_of_mem_arguments hmem)

def collapse : Edit Bool := do
  if method.name != trueName then return false
  if (← get).arguments.length != 1 then return false
  become (collapseTests (← get))

end Rules

section Outcomes

open OperatorCall

variable (settings : Settings) (spelling : Spelling) (method : Method) (call : Expr)

/-- A rule that puts a result in the place of a node, or leaves the node as it was. -/
def outcome (result : Option Expr) (node : Expr) : Bool × Expr := (result.isSome, result.getD node)

theorem annotations_chain (first second : Expr) (rest : List Expr) :
    (Concatenation.chain first (second :: rest)).annotations = [] := by
  induction rest generalizing first second with
  | nil => rfl
  | cons third rest ih => exact ih (.ofForm (.binary .add first second)) third

@[simp] theorem annotate_ofForm (form : Form Expr) (annotations : Annotations) :
    (ofForm form).annotate annotations = ⟨form, annotations⟩ := rfl

@[simp] theorem annotations_dropArguments : call.dropArguments.annotations = call.annotations := rfl

@[simp] theorem outcome_none : outcome none call = (false, call) := rfl

@[simp] theorem outcome_some (result : Expr) : outcome (some result) call = (true, result) := rfl

theorem perform_concatenate : (concatenate method).perform call =
    outcome (Concatenation.recover? method call) call := by
  unfold concatenate Concatenation.recover?
  simp only [perform_ite, perform_get_bind, perform_takeArguments_bind, perform_pure]
  rcases call.arguments with _ | ⟨first, _ | ⟨second, rest⟩⟩
  · simp
  · simp
  · have hchain : (Concatenation.chain first (second :: rest)).annotate call.annotations =
        ⟨(Concatenation.chain first (second :: rest)).form, call.annotations⟩ := by
      rw [annotate, annotations_chain, List.nil_append]
    have hlong : decide ((first :: second :: rest).length < 2) = false := by simp
    have hstrings : ((first :: second :: rest).take 2).any Concatenation.isString =
        (Concatenation.isString first || Concatenation.isString second) := by simp
    simp only [perform_supersede, annotations_dropArguments, hchain, hlong, hstrings,
      Bool.false_or]
    cases Concatenation.accepts method <;> cases (first :: second :: rest).any isNamed <;>
      cases Concatenation.isString first || Concatenation.isString second <;> rfl

theorem perform_instantiate : (instantiate spelling method).perform call =
    outcome (Instantiation.recover? spelling method call) call := by
  unfold instantiate Instantiation.recover?
  simp only [perform_ite, perform_get_bind, perform_pure, bne]
  cases method.fullName == Instantiation.methodName <;> cases call.arguments.isEmpty <;>
    cases Instantiation.parameter? method <;> rfl

theorem perform_interpolate : (interpolate method).perform call =
    outcome (Interpolation.recover? method call) call := by
  unfold interpolate Interpolation.recover?
  simp only [perform_ite, perform_get_bind, perform_pure]
  rcases harguments : call.arguments with _ | ⟨format, _ | ⟨first, rest⟩⟩
  · simp
  · simp
  · by_cases hname : method.fullName = Interpolation.methodName
    · cases htext : Interpolation.format? format with
      | none => simp [htext]
      | some text =>
        simp only [hname, htext, perform_ite, perform_pure, Option.bind_some, bne_self_eq_false,
          beq_self_eq_true, Bool.true_and, List.isEmpty_cons, Bool.false_eq_true, if_false]
        cases (first :: rest).any containsStringLiteral <;>
          cases (format :: first :: rest).any isNamed <;>
          cases Interpolation.passesArray method (format :: first :: rest).length <;>
          try rfl
        cases FormatPlan.plan text.toList (first :: rest).length with
        | error reason => rfl
        | ok segments => simp [harguments]
    · simp [hname]

theorem perform_replaceBinary : (replaceBinary settings method).perform call =
    outcome (binary? settings method call) call := by
  unfold replaceBinary binary?
  simp only [perform_ite, perform_get_bind, perform_pure]
  rcases harguments : call.arguments with _ | ⟨first, _ | ⟨second, _ | ⟨third, rest⟩⟩⟩
  · simp
  · simp
  · cases BinaryOperator.ofMetadataName? method.name with
    | none => rfl
    | some op =>
      cases havailable : isAvailable settings op <;> simp [harguments, havailable]
  · simp

theorem perform_replaceUnary : (replaceUnary method).perform call =
    outcome (unary? method call) call := by
  unfold replaceUnary unary?
  simp only [perform_ite, perform_get_bind, perform_pure]
  rcases harguments : call.arguments with _ | ⟨argument, _ | ⟨second, rest⟩⟩
  · simp
  · cases UnaryOperator.ofMetadataName? method.name with
    | none => rfl
    | some op => simp [harguments]
  · simp

theorem perform_convert : (convert spelling method).perform call =
    outcome (explicit? spelling method call) call := by
  unfold convert explicit?
  simp only [perform_ite, perform_get_bind, perform_pure, bne]
  rcases harguments : call.arguments with _ | ⟨argument, _ | ⟨second, rest⟩⟩
  · simp
  · cases method.name == explicitName <;> simp [harguments]
  · simp

/-- Ranges that are appended leave the method that a call resolves to. -/
theorem isTrueCall_append (form : Form Expr) (annotations : Annotations)
    (stripped : List InstructionRange) :
    isTrueCall ⟨form, annotations ++ Annotations.ofInstructions stripped⟩ =
      isTrueCall ⟨form, annotations⟩ := by
  simp only [isTrueCall, isTrueTest, Annotations.method?_append_ofInstructions]

/-- One round of the loop. -/
theorem collapseTests_call {target argument : Expr} {annotations : Annotations}
    (tests : isTrueTest annotations = true) (stripped : List InstructionRange) :
    collapseTests ⟨.call target [argument], annotations ++ Annotations.ofInstructions stripped⟩ =
      collapseTests ((operand argument).inheritInstructions
        (annotations ++ Annotations.ofInstructions stripped)) := by
  have htests : isTrueCall ⟨.call target [argument], annotations⟩ = true := tests
  rw [collapseTests, isTrueCall_append, if_pos htests]
  rfl

theorem inheritInstructions_eq (e : Expr) (annotations : Annotations)
    (stripped : List InstructionRange) :
    e.inheritInstructions (annotations ++ Annotations.ofInstructions stripped) =
      ⟨e.form, e.annotations ++
        Annotations.ofInstructions (Annotations.instructions annotations ++ stripped)⟩ := by
  rw [inheritInstructions, Annotations.inheritInstructions, Annotations.instructions_append,
    Annotations.instructions_ofInstructions]

theorem collapseTests_of_untested {form : Form Expr} {annotations : Annotations}
    (h : isTrueCall ⟨form, annotations⟩ = false) (stripped : List InstructionRange) :
    collapseTests ⟨form, annotations ++ Annotations.ofInstructions stripped⟩ =
      ⟨form, annotations ++ Annotations.ofInstructions stripped⟩ := by
  rw [collapseTests, isTrueCall_append, h]
  rfl

/-- The ranges behind the annotations are those of the calls that stood around. -/
theorem collapseTests_eq_stripTrueTests (stripped : List InstructionRange) (e : Expr) :
    collapseTests ⟨e.form, e.annotations ++ Annotations.ofInstructions stripped⟩ =
      stripTrueTests stripped e := by
  fun_induction stripTrueTests stripped e with
  | case1 stripped target inner marker annotations tests ih =>
    rw [collapseTests_call tests, inheritInstructions_eq]
    exact ih
  | case2 stripped target inner marker annotations tests =>
    have hcall : isTrueCall ⟨.call target [⟨.directed .readonly inner, marker⟩], annotations⟩ =
        false := eq_false_of_ne_true tests
    exact collapseTests_of_untested hcall stripped
  | case3 stripped target argument annotations unmarked tests ih =>
    rw [collapseTests_call tests, inheritInstructions_eq, operand_eq_self unmarked]
    exact ih
  | case4 stripped target argument annotations unmarked tests =>
    have hcall : isTrueCall ⟨.call target [argument], annotations⟩ = false :=
      eq_false_of_ne_true tests
    exact collapseTests_of_untested hcall stripped
  | case5 stripped form annotations unmarked single =>
    refine collapseTests_of_untested ?_ stripped
    unfold isTrueCall
    split
    next target argument hform => exact absurd hform (single target argument)
    next => rfl

theorem perform_collapse : (collapse method).perform call =
    outcome (truth? method call) call := by
  have hcollapse : collapseTests call = stripTrueTests [] call := by
    obtain ⟨form, annotations⟩ := call
    have hnone := collapseTests_eq_stripTrueTests [] ⟨form, annotations⟩
    rw [Annotations.ofInstructions, List.isEmpty_nil, if_pos rfl, List.append_nil] at hnone
    exact hnone
  unfold collapse truth?
  simp only [perform_ite, perform_get_bind, perform_pure, perform_become, bne, hcollapse]
  rcases call.arguments with _ | ⟨argument, _ | ⟨second, rest⟩⟩
  · simp
  · cases method.name == trueName <;> rfl
  · simp

section Handles

open Pattern Handle

variable {call}

theorem exists_of_match?_typePattern {m : Match} (h : match? typePattern call = some m) :
    ∃ operand, m.capture? "type" = some [1, 0] ∧ call.descendant? [1, 0] = some operand := by
  simp only [match?, typePattern, run_callOf_iff, runItems_single_iff, run_member_iff,
    run_typeOperand_iff] at h
  obtain ⟨target, _, annotations, rfl, _, argument, _, rfl,
    ⟨operand, _, ⟨memberAnnotations, rfl⟩, ⟨_, rfl⟩, rfl⟩, rfl⟩ := h
  exact ⟨operand, rfl, rfl⟩

theorem exists_of_match?_fieldPattern {m : Match} (h : match? fieldPattern call = some m) :
    ∃ token, m.capture? "token" = some [1, 0] ∧ call.descendant? [1, 0] = some token := by
  obtain ⟨target, first, rest, annotations, token, more, rfl, _, ⟨_, rfl⟩, _, _, rfl⟩ :=
    match?_fieldPattern_iff.mp h
  exact ⟨token, capture?_token [] token more, rfl⟩

theorem exists_of_match?_methodPattern {m : Match} (h : match? methodPattern call = some m) :
    ∃ token, m.capture? "token" = some [0, 1, 0] ∧ call.descendant? [0, 1, 0] = some token := by
  obtain ⟨type, target, first, rest, callAnnotations, annotations, token, more, rfl, _, _,
    ⟨_, rfl⟩, _, _, rfl⟩ := match?_methodPattern_iff.mp h
  exact ⟨token, capture?_token [0] token more, rfl⟩

variable (call)

theorem perform_unwrapType : unwrapType.perform call = outcome (type? call) call := by
  unfold unwrapType type?
  rw [perform_get_bind]
  cases hmatch : match? typePattern call with
  | none => rfl
  | some m =>
    obtain ⟨operand, hcapture, hoperand⟩ := exists_of_match?_typePattern hmatch
    simp [captured?, hcapture, hoperand, perform_detach_bind call hoperand, annotations_detachAt]

theorem field?_eq : Handle.field? call = (match? fieldPattern call).bind fun m =>
    (captured? m call "token").bind fun token => (qualifiedField? m call).map fun qualified =>
      (requalify token qualified).inheritInstructions call.annotations := by
  unfold Handle.field? qualifiedField? declaringType?
  simp only [Option.bind_eq_bind]
  congr 1
  funext m
  congr 1
  funext token
  cases hcapture : m.capture? "declaringType" with
  | none => rfl
  | some path =>
    simp only [captured?, hcapture, Option.bind_some, Option.map_bind, Function.comp_def]
    rfl

theorem perform_unwrapField : unwrapField.perform call = outcome (Handle.field? call) call := by
  rw [field?_eq, unwrapField, perform_get_bind]
  cases hmatch : match? fieldPattern call with
  | none => rfl
  | some m =>
    obtain ⟨token, hcapture, htoken⟩ := exists_of_match?_fieldPattern hmatch
    cases hqualified : qualifiedField? m call <;>
      simp [captured?, hcapture, htoken, hqualified, perform_detach_bind call htoken,
        annotations_detachAt]

theorem perform_unwrapMethod :
    (unwrapMethod spelling).perform call = outcome (Handle.method? spelling call) call := by
  unfold unwrapMethod Handle.method?
  rw [perform_get_bind]
  cases hmatch : match? methodPattern call with
  | none => rfl
  | some m =>
    obtain ⟨token, hcapture, htoken⟩ := exists_of_match?_methodPattern hmatch
    cases hqualified : qualifiedMethod? spelling m call <;>
      simp [captured?, hcapture, htoken, hqualified, perform_detach_bind call htoken,
        annotations_detachAt, requalify]

end Handles

end Outcomes

end Edit

/-- How a rewrite works on a node. -/
def Pass.CallRewrite.edit (settings : Settings) (spelling : Spelling) (method : Method) :
    Pass.CallRewrite → Edit Bool
  | .concatenation => Edit.concatenate method
  | .typeHandle => Edit.unwrapType
  | .fieldHandle => Edit.unwrapField
  | .instantiation => Edit.instantiate spelling method
  | .interpolation => Edit.interpolate method
  | .binary => Edit.replaceBinary settings method
  | .unary => Edit.replaceUnary method
  | .conversion => Edit.convert spelling method
  | .truthTest => Edit.collapse method

/-- A rewrite leaves what it makes of the node, or the node. -/
theorem Pass.CallRewrite.perform_edit (settings : Settings) (spelling : Spelling) (method : Method)
    (w : Pass.CallRewrite) (node : Expr) :
    (w.edit settings spelling method).perform node =
      Edit.outcome (w.attempt? settings spelling method node) node := by
  cases w with
  | concatenation => exact Edit.perform_concatenate method node
  | typeHandle => exact Edit.perform_unwrapType node
  | fieldHandle => exact Edit.perform_unwrapField node
  | instantiation => exact Edit.perform_instantiate spelling method node
  | interpolation => exact Edit.perform_interpolate method node
  | binary => exact Edit.perform_replaceBinary settings method node
  | unary => exact Edit.perform_replaceUnary method node
  | conversion => exact Edit.perform_convert spelling method node
  | truthTest => exact Edit.perform_collapse method node

end OperatorRecovery
