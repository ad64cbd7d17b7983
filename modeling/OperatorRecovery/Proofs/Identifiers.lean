import Mathlib.Data.List.Basic
import Mathlib.Data.List.Flatten
import OperatorRecovery.Proofs.FormatPlans
import OperatorRecovery.Proofs.Nodes
import OperatorRecovery.Proofs.Rewrites
import OperatorRecovery.Proofs.TruthTests

/-!
What a run evaluates, and in which order. A walk through a tree in source order meets
its identifiers; a run adds none, repeats none and moves none past another. What it
drops are the targets of the calls that it rewrites and what stands around an
unwrapped handle. So a walk that leaves out the targets of resolved calls meets the
same identifiers before and after every run that unwraps no handles.
-/

namespace OperatorRecovery

namespace Form

def identifier? : Form ε → Option String
  | .identifier name => some name
  | _ => none

/-- The parts that a walk passes through, which may skip the target of a call. -/
def walked (skipsTarget : Bool) (form : Form ε) : List (Role × ε) :=
  form.slots.filter fun slot => !(skipsTarget && slot.1 == .target)

theorem identifier?_mapRoles (g : Role → ε → δ) (form : Form ε) :
    (form.mapRoles g).identifier? = form.identifier? := by
  cases form <;> rfl

theorem walked_mapRoles (skipsTarget : Bool) (g : Role → ε → δ) (form : Form ε) :
    (form.mapRoles g).walked skipsTarget =
      (form.walked skipsTarget).map fun slot => (slot.1, g slot.1 slot.2) := by
  rw [walked, slots_mapRoles, List.filter_map]
  rfl

theorem walked_eq_slots {form : Form ε} (h : ∀ slot ∈ form.slots, slot.1 ≠ .target)
    (skipsTarget : Bool) : form.walked skipsTarget = form.slots := by
  rw [walked, List.filter_eq_self]
  intro slot hslot
  simp [h slot hslot]

theorem walked_call (skipsTarget : Bool) (target : ε) (arguments : List ε) :
    (Form.call target arguments).walked skipsTarget =
      (if skipsTarget then [] else [(.target, target)]) ++ arguments.map (Role.argument, ·) := by
  have harguments : (arguments.map (Role.argument, ·)).filter
      (fun slot => !(skipsTarget && slot.1 == .target)) = arguments.map (Role.argument, ·) := by
    rw [List.filter_eq_self, List.forall_mem_map]
    intro argument _
    cases skipsTarget <;> rfl
  rw [walked, slots, List.filter_cons, harguments]
  cases skipsTarget <;> rfl

end Form

namespace Expr

section Walks

variable (skips : Option Method → Bool)

/-- The identifiers that a walk in source order meets. It skips the target of a call
according to the method that the call is resolved to. -/
def identifiersSkipping : Expr → List String :=
  fold fun form annotations => form.identifier?.toList ++
    (form.walked (skips (Annotations.method? annotations))).flatMap (·.2)

theorem identifiersSkipping_mk (form : Form Expr) (annotations : Annotations) :
    identifiersSkipping skips ⟨form, annotations⟩ = form.identifier?.toList ++
      (form.walked (skips (Annotations.method? annotations))).flatMap
        fun slot => identifiersSkipping skips slot.2 := by
  rw [identifiersSkipping, fold_mk, Form.map_eq_mapRoles, Form.identifier?_mapRoles,
    Form.walked_mapRoles, List.flatMap_map]

theorem identifiersSkipping_mapRoles (g : Role → Expr → Expr) (form : Form Expr)
    (annotations : Annotations) :
    identifiersSkipping skips ⟨form.mapRoles g, annotations⟩ = form.identifier?.toList ++
      (form.walked (skips (Annotations.method? annotations))).flatMap
        fun slot => identifiersSkipping skips (g slot.1 slot.2) := by
  rw [identifiersSkipping_mk, Form.identifier?_mapRoles, Form.walked_mapRoles, List.flatMap_map]

/-- Of the annotations only the method matters. -/
theorem identifiersSkipping_congr (form : Form Expr) {annotations annotations' : Annotations}
    (h : Annotations.method? annotations = Annotations.method? annotations') :
    identifiersSkipping skips ⟨form, annotations⟩ =
      identifiersSkipping skips ⟨form, annotations'⟩ := by
  rw [identifiersSkipping_mk, identifiersSkipping_mk, h]

theorem identifiersSkipping_inheritInstructions (e : Expr) (donor : Annotations) :
    identifiersSkipping skips (e.inheritInstructions donor) = identifiersSkipping skips e := by
  obtain ⟨form, annotations⟩ := e
  apply identifiersSkipping_congr
  exact Annotations.method?_append_ofInstructions annotations _

theorem identifiersSkipping_call (target : Expr) (arguments : List Expr)
    (annotations : Annotations) :
    identifiersSkipping skips ⟨.call target arguments, annotations⟩ =
      (if skips (Annotations.method? annotations) then [] else identifiersSkipping skips target) ++
        arguments.flatMap (identifiersSkipping skips) := by
  rw [identifiersSkipping_mk, Form.walked_call, List.flatMap_append, List.flatMap_map]
  cases skips (Annotations.method? annotations) <;> simp [Form.identifier?]

theorem identifiersSkipping_binary (op : BinaryOperator) (left right : Expr)
    (annotations : Annotations) :
    identifiersSkipping skips ⟨.binary op left right, annotations⟩ =
      identifiersSkipping skips left ++ identifiersSkipping skips right := by
  simp [identifiersSkipping_mk, Form.walked, Form.slots, Form.identifier?]

/-- A form with a single part that is no target. -/
theorem identifiersSkipping_single {form : Form Expr} {part : Expr} (annotations : Annotations)
    (hslots : form.slots = [(.expression, part)]) (hidentifier : form.identifier? = none) :
    identifiersSkipping skips ⟨form, annotations⟩ = identifiersSkipping skips part := by
  simp [identifiersSkipping_mk, Form.walked, hslots, hidentifier]

theorem identifiersSkipping_chain (first : Expr) (rest : List Expr) :
    identifiersSkipping skips (Concatenation.chain first rest) =
      (first :: rest).flatMap (identifiersSkipping skips) := by
  induction rest generalizing first with
  | nil => simp [Concatenation.chain]
  | cons second rest ih =>
    have hstep : Concatenation.chain first (second :: rest) =
        Concatenation.chain (.ofForm (.binary .add first second)) rest := rfl
    rw [hstep, ih, List.flatMap_cons, ofForm, identifiersSkipping_binary, List.append_assoc]
    rfl

theorem identifiersSkipping_form_chain (first second : Expr) (rest : List Expr)
    (annotations : Annotations) :
    identifiersSkipping skips ⟨(Concatenation.chain first (second :: rest)).form, annotations⟩ =
      (first :: second :: rest).flatMap (identifiersSkipping skips) := by
  obtain ⟨left, right, own, hchain⟩ := Concatenation.exists_chain_eq first second rest
  rw [← identifiersSkipping_chain, hchain, identifiersSkipping_binary, identifiersSkipping_binary]

theorem identifiersSkipping_shielded (e : Expr) :
    identifiersSkipping skips (FormatPlan.shielded e) = identifiersSkipping skips e := by
  unfold FormatPlan.shielded
  split
  · exact identifiersSkipping_single skips _ rfl rfl
  · rfl

theorem identifiersSkipping_interpolated {format : List Char} {arguments : List Expr}
    {segments : List FormatPlan.Segment}
    (planned : FormatPlan.plan format arguments.length = .ok segments) (annotations : Annotations) :
    identifiersSkipping skips ⟨.interpolated (FormatPlan.build segments arguments), annotations⟩ =
      arguments.flatMap (identifiersSkipping skips) := by
  have hslots := FormatPlan.slots_build (FormatPlan.plan_eq_ok_iff.mp planned).2.length_indices
  have hexpressions : ∀ slot ∈ (Form.interpolated (FormatPlan.build segments arguments)).slots,
      slot.1 ≠ .target := List.forall_mem_map.mpr fun _ _ => nofun
  have hwalked := Form.walked_eq_slots hexpressions (skips (Annotations.method? annotations))
  rw [identifiersSkipping_mk, hwalked, Form.slots, hslots, List.flatMap_map, List.flatMap_map]
  simp only [identifiersSkipping_shielded]
  rfl

theorem identifiersSkipping_of_format? {format : Expr} {text : String}
    (h : Interpolation.format? format = some text) : identifiersSkipping skips format = [] := by
  obtain ⟨form, annotations⟩ := format
  unfold Interpolation.format? at h
  split at h
  · rename_i _ _ hform
    cases hform
    simp [identifiersSkipping_mk, Form.walked, Form.slots, Form.identifier?]
  · cases h

theorem identifiersSkipping_operand (argument : Expr) :
    identifiersSkipping skips (OperatorCall.operand argument) =
      identifiersSkipping skips argument := by
  obtain ⟨form, annotations⟩ := argument
  unfold OperatorCall.operand
  split
  · rename_i _ inner hform
    cases hform
    rw [identifiersSkipping_single skips annotations rfl rfl]
  · rfl

theorem identifiersSkipping_unaryForm (method : Method) (op : UnaryOperator) (argument : Expr)
    (annotations : Annotations) :
    identifiersSkipping skips ⟨OperatorCall.unaryForm method op argument, annotations⟩ =
      identifiersSkipping skips argument := by
  have hone : identifiersSkipping skips (ofForm (.literal (.decimal 1))) = [] := by
    simp [ofForm, identifiersSkipping_mk, Form.walked, Form.slots, Form.identifier?]
  unfold OperatorCall.unaryForm
  split
  · rw [identifiersSkipping_binary, hone, List.append_nil]
  · exact identifiersSkipping_single skips annotations rfl rfl

theorem arguments_sublist_call (target : Expr) (arguments : List Expr)
    (annotations : Annotations) :
    (arguments.flatMap (identifiersSkipping skips)).Sublist
      (identifiersSkipping skips ⟨.call target arguments, annotations⟩) := by
  rw [identifiersSkipping_call]
  exact List.sublist_append_right _ _

theorem identifiersSkipping_call_of_skips {annotations : Annotations}
    (h : skips (Annotations.method? annotations) = true) (target : Expr) (arguments : List Expr) :
    identifiersSkipping skips ⟨.call target arguments, annotations⟩ =
      arguments.flatMap (identifiersSkipping skips) := by
  rw [identifiersSkipping_call, h, if_pos rfl, List.nil_append]

end Walks

section Tests

open OperatorCall (StripsTo)

variable {skips : Option Method → Bool} {e inner : Expr} {ranges : List InstructionRange}

theorem identifiersSkipping_stripsTo_sublist (h : StripsTo e inner ranges) :
    (identifiersSkipping skips inner).Sublist (identifiersSkipping skips e) := by
  induction h with
  | stop => exact List.Sublist.refl _
  | @test target argument inner annotations ranges tests strips ih =>
    rw [identifiersSkipping_operand] at ih
    have hargument := arguments_sublist_call skips target [argument] annotations
    rw [List.flatMap_singleton] at hargument
    exact ih.trans hargument

theorem identifiersSkipping_stripsTo_eq (hskips : ∀ method, skips (some method) = true)
    (h : StripsTo e inner ranges) :
    identifiersSkipping skips inner = identifiersSkipping skips e := by
  induction h with
  | stop => rfl
  | test tests strips ih =>
    obtain ⟨method, resolved, _⟩ := OperatorCall.isTrueTest_iff.mp tests
    rw [ih, identifiersSkipping_operand,
      identifiersSkipping_call_of_skips skips (by rw [resolved, hskips]), List.flatMap_singleton]

theorem identifiersSkipping_stripTrueTests_sublist (stripped : List InstructionRange) (e : Expr) :
    (identifiersSkipping skips (OperatorCall.stripTrueTests stripped e)).Sublist
      (identifiersSkipping skips e) := by
  obtain ⟨form, annotations, ranges, hstrips, heq⟩ := OperatorCall.exists_stripsTo stripped e
  rw [heq, identifiersSkipping_congr skips form
    (Annotations.method?_append_ofInstructions annotations _)]
  exact identifiersSkipping_stripsTo_sublist hstrips

theorem identifiersSkipping_stripTrueTests_eq (hskips : ∀ method, skips (some method) = true)
    (stripped : List InstructionRange) (e : Expr) :
    identifiersSkipping skips (OperatorCall.stripTrueTests stripped e) =
      identifiersSkipping skips e := by
  obtain ⟨form, annotations, ranges, hstrips, heq⟩ := OperatorCall.exists_stripsTo stripped e
  rw [heq, identifiersSkipping_congr skips form
    (Annotations.method?_append_ofInstructions annotations _)]
  exact identifiersSkipping_stripsTo_eq hskips hstrips

end Tests

section Handles

variable {skips : Option Method → Bool} {spelling : Spelling}

theorem identifiersSkipping_selects {name : String} {target e : Expr}
    (h : Handle.Selects name target e) :
    identifiersSkipping skips e = identifiersSkipping skips target := by
  obtain ⟨annotations, rfl⟩ := h
  exact identifiersSkipping_single skips annotations rfl rfl

theorem identifiersSkipping_typeReference (type : TypeSyntax) (annotations : Annotations) :
    identifiersSkipping skips ⟨.typeReference type, annotations⟩ = [] := by
  simp [identifiersSkipping_mk, Form.walked, Form.slots, Form.identifier?]

/-- What is put into a token is made of types alone. -/
theorem identifiersSkipping_namesMember {e : Expr} (h : Handle.NamesMember spelling e) :
    identifiersSkipping skips e = [] := by
  have hmember (type : TypeSyntax) (name : String) (reference : Expr) :
      identifiersSkipping skips (Handle.memberOf type name reference) = [] := by
    rw [Handle.memberOf, identifiersSkipping_single skips _ rfl rfl]
    exact identifiersSkipping_typeReference type []
  cases h with
  | field type name reference => exact hmember type name reference
  | method type method reference =>
    rw [Handle.signature, ofForm, identifiersSkipping_call, hmember, ite_self, List.nil_append,
      List.flatMap_eq_nil_iff, List.forall_mem_map]
    intro parameter _
    exact identifiersSkipping_typeReference _ []

theorem identifiersSkipping_retargets_sublist {token replacement : Expr}
    (h : Handle.Retargets spelling token replacement) :
    (identifiersSkipping skips replacement).Sublist (identifiersSkipping skips token) := by
  cases h with
  | kept => exact List.Sublist.refl _
  | named names =>
    rw [identifiersSkipping_call, identifiersSkipping_call, List.flatMap_singleton,
      identifiersSkipping_namesMember names]
    exact List.Sublist.append (List.Sublist.refl _) (List.nil_sublist _)

end Handles

/-- The identifiers of an expression in source order. -/
def identifiers : Expr → List String := identifiersSkipping fun _ => false

/-- The identifiers outside the targets of resolved calls. -/
def operandIdentifiers : Expr → List String := identifiersSkipping Option.isSome

theorem identifiers_annotate (e : Expr) (annotations : Annotations) :
    (e.annotate annotations).identifiers = e.identifiers := by
  obtain ⟨form, own⟩ := e
  rw [annotate, identifiers, identifiersSkipping_mk, identifiersSkipping_mk]

end Expr

namespace Pass

open OperatorRecovery.Expr

variable {settings : Settings} {spelling : Spelling} {role : Role} {result : Expr}
  {skips : Option Method → Bool}

/-- A rewritten call keeps the identifiers of its arguments, all of them in their order
unless it unwraps a handle. -/
theorem Rewrites.identifiers_call {target : Expr} {arguments : List Expr}
    {annotations : Annotations}
    (h : Rewrites settings spelling role ⟨.call target arguments, annotations⟩ result) :
    (identifiersSkipping skips result).Sublist (arguments.flatMap (identifiersSkipping skips)) ∧
      (settings.isEnabled .handleUnwrapping = false → (∀ method, skips (some method) = true) →
        identifiersSkipping skips result = arguments.flatMap (identifiersSkipping skips)) := by
  have hkept (heq : identifiersSkipping skips result =
      arguments.flatMap (identifiersSkipping skips)) :
      (identifiersSkipping skips result).Sublist (arguments.flatMap (identifiersSkipping skips)) ∧
        (settings.isEnabled .handleUnwrapping = false → (∀ method, skips (some method) = true) →
          identifiersSkipping skips result = arguments.flatMap (identifiersSkipping skips)) :=
    ⟨heq ▸ List.Sublist.refl _, fun _ _ => heq⟩
  cases h with
  | concatenation => exact hkept (identifiersSkipping_form_chain skips _ _ _ _)
  | typeHandle enabled resolves selects isOperand =>
    refine ⟨?_, fun disabled => by rw [enabled] at disabled; cases disabled⟩
    rw [identifiersSkipping_inheritInstructions, List.flatMap_singleton,
      identifiersSkipping_selects selects]
  | fieldHandle enabled resolves selects loads replaces =>
    refine ⟨?_, fun disabled => by rw [enabled] at disabled; cases disabled⟩
    rw [identifiersSkipping_inheritInstructions, List.flatMap_cons,
      identifiersSkipping_selects selects]
    exact (identifiersSkipping_retargets_sublist (replaces.retargets spelling)).trans
      (List.sublist_append_left _ _)
  | instantiation =>
    apply hkept
    simp [identifiersSkipping_mk, Form.walked, Form.slots, Form.identifier?]
  | @interpolation _ format first rest _ _ text _ _ _ _ _ _ _ literal planned =>
    apply hkept
    rw [identifiersSkipping_interpolated skips planned, List.flatMap_cons (x := format),
      identifiersSkipping_of_format? skips literal, List.nil_append]
  | binary =>
    apply hkept
    rw [identifiersSkipping_binary, identifiersSkipping_operand, identifiersSkipping_operand]
    simp
  | unary =>
    apply hkept
    rw [identifiersSkipping_unaryForm, identifiersSkipping_operand, List.flatMap_singleton]
  | conversion =>
    apply hkept
    rw [identifiersSkipping_single skips _ rfl rfl, identifiersSkipping_operand,
      List.flatMap_singleton]
  | @truthTest _ argument _ enabled condition tests =>
    have hargument := identifiersSkipping_operand skips argument
    rw [OperatorCall.stripTrueTests_call tests, List.flatMap_singleton, ← hargument]
    exact ⟨identifiersSkipping_stripTrueTests_sublist _ _, fun _ hskips =>
      identifiersSkipping_stripTrueTests_eq hskips _ _⟩

theorem Rewrites.identifiers_cast {type : TypeSyntax} {operand : Expr} {annotations : Annotations}
    (h : Rewrites settings spelling role ⟨.cast type operand, annotations⟩ result) :
    settings.isEnabled .handleUnwrapping = true ∧
      result.identifiers.Sublist (identifiers ⟨.cast type operand, annotations⟩) := by
  cases h with
  | methodHandle enabled refers resolves selects loads replaces =>
    refine ⟨enabled, ?_⟩
    rw [identifiers_annotate, identifiers, identifiersSkipping_single _ _ rfl rfl,
      identifiersSkipping_call, List.flatMap_cons, identifiersSkipping_selects selects]
    exact (identifiersSkipping_retargets_sublist replaces.retargets).trans
      ((List.sublist_append_left _ _).trans (List.sublist_append_right _ _))

theorem identifiers_recoverNode_sublist (role : Role) (e : Expr) :
    (recoverNode settings spelling role e).identifiers.Sublist e.identifiers := by
  rcases @recoverNode_cases settings spelling role e with h | ⟨h, _⟩
  · obtain ⟨form, annotations⟩ := e
    cases form with
    | call target arguments =>
      exact h.identifiers_call.1.trans (arguments_sublist_call _ target arguments annotations)
    | cast type operand => exact h.identifiers_cast.2
    | _ => cases h
  · rw [h]

theorem operandIdentifiers_recoverNode_eq
    (disabled : settings.isEnabled .handleUnwrapping = false) (role : Role) (e : Expr) :
    (recoverNode settings spelling role e).operandIdentifiers = e.operandIdentifiers := by
  rcases @recoverNode_cases settings spelling role e with h | ⟨h, _⟩
  · obtain ⟨form, annotations⟩ := e
    cases form with
    | call target arguments =>
      obtain ⟨method, rule, resolved, _⟩ := h.recoverBy?
      have hskips : Option.isSome (Annotations.method? annotations) = true := by rw [resolved]; rfl
      rw [operandIdentifiers, h.identifiers_call.2 disabled fun _ => rfl,
        identifiersSkipping_call_of_skips Option.isSome hskips]
    | cast type operand =>
      rw [h.identifiers_cast.1] at disabled
      cases disabled
    | _ => cases h
  · rw [h]

end Pass

section Runs

variable (settings : Settings) (spelling : Spelling)

theorem Expr.identifiers_recoverIn_sublist (role : Role) (e : Expr) :
    (e.recoverIn settings spelling role).identifiers.Sublist e.identifiers := by
  induction e using induction_on_parts generalizing role with
  | step e ih =>
    obtain ⟨form, annotations⟩ := e
    rw [recoverIn_mk, ← Form.mapRoles]
    refine (Pass.identifiers_recoverNode_sublist role _).trans ?_
    rw [identifiers, identifiersSkipping_mapRoles, identifiersSkipping_mk]
    refine List.Sublist.append (List.Sublist.refl _) (List.Sublist.flatMap_right _ ?_)
    intro slot hslot
    exact ih slot.2 (Form.mem_parts_of_mem_slots (List.mem_filter.mp hslot).1) slot.1

variable {settings} in
theorem Expr.operandIdentifiers_recoverIn_eq
    (disabled : settings.isEnabled .handleUnwrapping = false) (role : Role) (e : Expr) :
    (e.recoverIn settings spelling role).operandIdentifiers = e.operandIdentifiers := by
  induction e using induction_on_parts generalizing role with
  | step e ih =>
    obtain ⟨form, annotations⟩ := e
    rw [recoverIn_mk, ← Form.mapRoles, Pass.operandIdentifiers_recoverNode_eq disabled,
      operandIdentifiers, identifiersSkipping_mapRoles, identifiersSkipping_mk]
    congr 1
    apply List.flatMap_congr
    intro slot hslot
    exact ih slot.2 (Form.mem_parts_of_mem_slots (List.mem_filter.mp hslot).1) slot.1

namespace Tree

/-- The identifiers of a tree in source order. -/
def identifiers (t : Tree) : List String := t.roots.flatMap (·.2.identifiers)

/-- The identifiers outside the targets of resolved calls. -/
def operandIdentifiers (t : Tree) : List String := t.roots.flatMap (·.2.operandIdentifiers)

/-- A run keeps the identifiers that it does not drop in their order, and if it unwraps no
handles, it drops none outside the targets of resolved calls. -/
theorem identifiers_recover (t : Tree) :
    (t.recover settings spelling).identifiers.Sublist t.identifiers ∧
      (settings.isEnabled .handleUnwrapping = false →
        (t.recover settings spelling).operandIdentifiers = t.operandIdentifiers) := by
  constructor
  · rw [identifiers, roots_recover, List.flatMap_map]
    exact List.Sublist.flatMap_right _ fun root _ =>
      root.2.identifiers_recoverIn_sublist settings spelling root.1
  · intro disabled
    rw [operandIdentifiers, roots_recover, List.flatMap_map]
    exact List.flatMap_congr fun root _ =>
      root.2.operandIdentifiers_recoverIn_eq spelling disabled root.1

/-- `while (op_True(in op_True(f))) { Format("{0} of {1:N2}", Concat(a, b), v.op_Addition(in x, y)); }`. -/
def nestedCalls : Tree :=
  let type : ResolvedType := .named "N" "C" []
  let test : Method := ⟨"op_True", type, true, [], .builtin .boolean, []⟩
  let sum : Method := ⟨"op_Addition", type, true, [], type, []⟩
  let name (s : String) : Expr := .ofForm (.identifier s)
  let marked (e : Expr) : Expr := .ofForm (.directed .readonly e)
  let condition := Expr.staticCall test [marked (.staticCall test [name "f"])]
  let text := Expr.staticCall (.ofName (.builtin .string) "Concat")
    [⟨.identifier "a", [.resolvedType (.builtin .string)]⟩, name "b"]
  let added : Expr := ⟨.call (.ofForm (.member (name "v") "op_Addition" []))
    [marked (name "x"), name "y"], [.symbol (.method sum)]⟩
  .stmt (.while condition [.expr (.staticCall (.ofName (.builtin .string) "Format")
    [.ofForm (.literal (.string "\x7b0\x7d of \x7b1:N2\x7d")), text, added])])

theorem identifiers_recover_nestedCalls :
    nestedCalls.identifiers = ["f", "a", "b", "v", "x", "y"] ∧
      nestedCalls.operandIdentifiers = ["f", "a", "b", "x", "y"] ∧
      (Settings.initial.disable .handleUnwrapping).isEnabled .handleUnwrapping = false ∧
      (nestedCalls.recover (Settings.initial.disable .handleUnwrapping)
        (SpellingStyle.spell ⟨true, false⟩)).operandIdentifiers = nestedCalls.operandIdentifiers :=
  have disabled : (Settings.initial.disable .handleUnwrapping).isEnabled .handleUnwrapping =
      false := by decide
  ⟨rfl, rfl, disabled, (identifiers_recover (Settings.initial.disable .handleUnwrapping)
    (SpellingStyle.spell ⟨true, false⟩) nestedCalls).2 disabled⟩

end Tree

end Runs

end OperatorRecovery
