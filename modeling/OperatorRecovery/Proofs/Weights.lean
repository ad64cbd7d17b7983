import Mathlib
import OperatorRecovery.Proofs.Nodes
import OperatorRecovery.Proofs.Rewrites
import OperatorRecovery.Proofs.TruthTests

/-!
Weights of expressions. Every node weighs something by its form and its own annotations,
whatever its parts are, and an expression weighs what its nodes weigh together. Rewrites
take expressions apart and build others from the pieces; where the nodes that they make
weigh nothing, what they build weighs no more than the pieces did.
-/

namespace OperatorRecovery

namespace Form

/-- The form alone, without what its parts are. -/
def shape (form : Form ε) : Form Unit := form.map fun _ => ()

theorem shape_map (g : ε → δ) (form : Form ε) : (form.map g).shape = form.shape := map_map g _ form

theorem shape_mapRoles (g : Role → ε → δ) (form : Form ε) :
    (form.mapRoles g).shape = form.shape := by
  rw [shape, shape, map_mapRoles, map_eq_mapRoles]

end Form

/-- What a node weighs, from its shape and its annotations. -/
abbrev Weight := Form Unit → Annotations → Nat

namespace Expr

variable (w : Weight)

/-- The weight of all nodes of an expression. -/
def weight : Expr → Nat := fold fun form annotations => w form.shape annotations + form.parts.sum

theorem weight_mk (form : Form Expr) (annotations : Annotations) :
    weight w ⟨form, annotations⟩ = w form.shape annotations + (form.parts.map (weight w)).sum := by
  rw [weight, fold_mk, Form.shape_map, Form.parts_map]

theorem weight_mapRoles (g : Role → Expr → Expr) (form : Form Expr) (annotations : Annotations) :
    weight w ⟨form.mapRoles g, annotations⟩ =
      w form.shape annotations + (form.slots.map fun slot => weight w (g slot.1 slot.2)).sum := by
  rw [weight_mk, Form.shape_mapRoles, Form.parts, Form.slots_mapRoles]
  simp only [List.map_map, Function.comp_def]

/-- A form with a single part. -/
theorem weight_single {form : Form Expr} {role : Role} {part : Expr} (annotations : Annotations)
    (hslots : form.slots = [(role, part)]) :
    weight w ⟨form, annotations⟩ = w form.shape annotations + weight w part := by
  simp [weight_mk, Form.parts, hslots]

theorem weight_binary (op : BinaryOperator) (left right : Expr) (annotations : Annotations) :
    weight w ⟨.binary op left right, annotations⟩ =
      w (.binary op () ()) annotations + (weight w left + weight w right) := by
  simp [weight_mk, Form.parts, Form.slots, Form.shape, Form.map]

theorem weight_call (target : Expr) (arguments : List Expr) (annotations : Annotations) :
    weight w ⟨.call target arguments, annotations⟩ =
      w (.call () (arguments.map fun _ => ())) annotations +
        (weight w target + (arguments.map (weight w)).sum) := by
  simp [weight_mk, Form.parts, Form.slots, Form.shape, Form.map, Function.comp_def]

theorem weight_argument_le (target first : Expr) (rest : List Expr) (annotations : Annotations) :
    weight w first ≤ weight w ⟨.call target (first :: rest), annotations⟩ := by
  simp only [weight_call, List.map_cons, List.sum_cons]
  omega

theorem weight_interpolated (pieces : List (Piece Expr)) (annotations : Annotations) :
    weight w ⟨.interpolated pieces, annotations⟩ =
      w (Form.interpolated pieces).shape annotations +
        ((pieces.filterMap Piece.slot?).map (weight w)).sum := by
  simp [weight_mk, Form.parts, Form.slots, Function.comp_def]

variable {w}

theorem weight_chain (hsum : ∀ annotations, w (.binary .add () ()) annotations = 0)
    (first : Expr) (rest : List Expr) :
    weight w (Concatenation.chain first rest) = weight w first + (rest.map (weight w)).sum := by
  induction rest generalizing first with
  | nil => rfl
  | cons second rest ih =>
    have hstep : Concatenation.chain first (second :: rest) =
        Concatenation.chain (.ofForm (.binary .add first second)) rest := rfl
    rw [hstep, ih, ofForm, weight_binary, hsum, List.map_cons, List.sum_cons]
    omega

/-- The outermost addition of a chain takes over the annotations of a call. -/
theorem weight_form_chain (hsum : ∀ annotations, w (.binary .add () ()) annotations = 0)
    (first second : Expr) (rest : List Expr) (annotations : Annotations) :
    weight w ⟨(Concatenation.chain first (second :: rest)).form, annotations⟩ =
      ((first :: second :: rest).map (weight w)).sum := by
  obtain ⟨left, right, own, hchain⟩ := Concatenation.exists_chain_eq first second rest
  have hweight := weight_chain hsum first (second :: rest)
  rw [hchain, weight_binary, hsum] at hweight
  rw [hchain, weight_binary, hsum, List.map_cons, List.sum_cons, ← hweight]

theorem weight_shielded (hshield : ∀ annotations, w (.parenthesized ()) annotations = 0)
    (e : Expr) : weight w (FormatPlan.shielded e) = weight w e := by
  unfold FormatPlan.shielded
  split
  · rw [ofForm, weight_single w [] rfl]
    simp [Form.shape, Form.map, hshield]
  · rfl

/-- Every argument fills one slot at most. -/
theorem weight_build_le (hshield : ∀ annotations, w (.parenthesized ()) annotations = 0)
    (segments : List FormatPlan.Segment) (arguments : List Expr) :
    (((FormatPlan.build segments arguments).filterMap Piece.slot?).map (weight w)).sum ≤
      (arguments.map (weight w)).sum := by
  fun_induction FormatPlan.build segments arguments with
  | case1 => simp
  | case2 text segments arguments ih => simpa [List.filterMap_cons, Piece.slot?] using ih
  | case3 index spec segments e arguments ih =>
    simpa [List.filterMap_cons, Piece.slot?, weight_shielded hshield] using ih
  | case4 index spec segments ih => simpa using ih

theorem weight_operand_le (argument : Expr) :
    weight w (OperatorCall.operand argument) ≤ weight w argument := by
  obtain ⟨form, annotations⟩ := argument
  unfold OperatorCall.operand
  split
  · rename_i inner hform
    cases hform
    rw [weight_single w annotations rfl]
    omega
  · exact Nat.le_refl _

theorem weight_operand_call_le (target argument : Expr) (annotations : Annotations) :
    weight w (OperatorCall.operand argument) ≤ weight w ⟨.call target [argument], annotations⟩ :=
  Nat.le_trans (weight_operand_le argument) (weight_argument_le w target argument [] annotations)

theorem weight_unaryForm {method : Method} {op : UnaryOperator}
    (hunary : ∀ annotations, w (.unary op ()) annotations = 0)
    (hstep : ∀ step, OperatorCall.decimalStep? op = some step →
      ∀ annotations, w (.binary step () ()) annotations = 0)
    (hone : w (.literal (.decimal 1)) [] = 0) (argument : Expr) (annotations : Annotations) :
    weight w ⟨OperatorCall.unaryForm method op argument, annotations⟩ = weight w argument := by
  unfold OperatorCall.unaryForm
  split
  · rename_i step _ hdecimal
    have hliteral : weight w (ofForm (.literal (.decimal 1))) = 0 := by
      rw [ofForm, weight_mk]
      simp [Form.shape, Form.map, Form.parts, Form.slots, hone]
    rw [weight_binary, hstep step hdecimal, hliteral]
    omega
  · rw [weight_single w annotations rfl]
    simp [Form.shape, Form.map, hunary]

theorem weight_stripsTo_le {e inner : Expr} {ranges : List InstructionRange}
    (h : OperatorCall.StripsTo e inner ranges) : weight w inner ≤ weight w e := by
  induction h with
  | stop => exact Nat.le_refl _
  | @test target argument inner annotations ranges tests strips ih =>
    have hoperand := weight_operand_call_le (w := w) target argument annotations
    omega

theorem weight_selects_le {name : String} {target e : Expr} (h : Handle.Selects name target e) :
    weight w target ≤ weight w e := by
  obtain ⟨annotations, rfl⟩ := h
  rw [weight_single w annotations rfl]
  omega

/-- What names a member on a type weighs nothing. -/
structure SparesReferences (w : Weight) : Prop where
  type : ∀ type, w (.typeReference type) [] = 0
  member : ∀ name annotations, w (.member () name []) annotations = 0
  signature : ∀ parameters, w (.call () parameters) [] = 0

theorem SparesReferences.weight_typeReference (h : SparesReferences w) (type : TypeSyntax) :
    weight w (ofForm (.typeReference type)) = 0 := by
  rw [ofForm, weight_mk]
  simp [Form.shape, Form.map, Form.parts, Form.slots, h.type]

theorem SparesReferences.weight_memberOf (h : SparesReferences w) (type : TypeSyntax)
    (name : String) (reference : Expr) : weight w (Handle.memberOf type name reference) = 0 := by
  rw [Handle.memberOf, weight_single w _ rfl, h.weight_typeReference]
  simp [Form.shape, Form.map, h.member]

theorem SparesReferences.weight_namesMember (h : SparesReferences w) {spelling : Spelling}
    {e : Expr} (names : Handle.NamesMember spelling e) : weight w e = 0 := by
  cases names with
  | field type name reference => exact h.weight_memberOf type name reference
  | method type method reference =>
    have hparameters : ((method.parameters.map fun p =>
        ofForm (.typeReference (spelling p.type))).map (weight w)).sum = 0 := by
      simp [Function.comp_def, h.weight_typeReference]
    rw [Handle.signature, ofForm, weight_call, h.signature, h.weight_memberOf, hparameters]

/-- A reference put into a token brings no weight with it. -/
theorem SparesReferences.weight_retargets_le (h : SparesReferences w) {spelling : Spelling}
    {token replacement : Expr} (retargets : Handle.Retargets spelling token replacement) :
    weight w replacement ≤ weight w token := by
  cases retargets with
  | kept => exact Nat.le_refl _
  | @named target reference made annotations names =>
    have hmade := h.weight_namesMember names
    simp only [weight_call, List.map_cons, List.map_nil, List.sum_cons, List.sum_nil, hmade]
    omega

/-- A run that makes no node heavier makes no expression heavier. -/
theorem weight_recoverIn_le {settings : Settings} {spelling : Spelling}
    (hnode : ∀ role e, weight w (Pass.recoverNode settings spelling role e) ≤ weight w e)
    (role : Role) (e : Expr) : weight w (e.recoverIn settings spelling role) ≤ weight w e := by
  induction e using induction_on_parts generalizing role with
  | step e ih =>
    obtain ⟨form, annotations⟩ := e
    have hparts : (form.slots.map fun slot =>
        weight w (slot.2.recoverIn settings spelling slot.1)).sum ≤
        (form.parts.map (weight w)).sum := by
      rw [Form.parts, List.map_map]
      apply List.sum_le_sum
      intro slot hslot
      exact ih slot.2 (Form.mem_parts_of_mem_slots hslot) slot.1
    rw [recoverIn_mk, ← Form.mapRoles]
    refine Nat.le_trans (hnode role _) ?_
    rw [weight_mapRoles, weight_mk]
    omega

end Expr

end OperatorRecovery
