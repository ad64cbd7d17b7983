import OperatorRecovery.Proofs.Nodes
import OperatorRecovery.Proofs.Rewrites
import OperatorRecovery.Proofs.TruthTests

/-!
Invariants of the output. Rewrites move nodes to other roles, append annotations
to them and put other references into tokens. None of this lets a rule accept
a node that it declined before, with three exceptions: a truth test that comes to
stand in a condition, a token that takes over a method, and a cast that a
conversion has just become. An invariant answers for these three, and then a run
establishes it at every node of its output.
-/

namespace OperatorRecovery

open OperatorCall (Untested StripsTo)

namespace Pass

variable {settings : Settings} {spelling : Spelling} {role role' : Role} {result : Expr}

/-- The role matters to truth tests alone. -/
theorem Rewrites.move {e : Expr} (h : Rewrites settings spelling role e result)
    (hrole : role = .condition → role' = .condition ∨ Untested e) :
    Rewrites settings spelling role' e result := by
  cases h with
  | truthTest enabled condition tests =>
    rcases hrole condition with hcondition | huntested
    · exact .truthTest enabled hcondition tests
    · rw [huntested _ _ rfl] at tests
      cases tests
  | concatenation enabled resolved accepted unnamed strings =>
    exact .concatenation enabled resolved accepted unnamed strings
  | typeHandle enabled resolves selects isOperand =>
    exact .typeHandle enabled resolves selects isOperand
  | fieldHandle enabled resolves selects loads replaces =>
    exact .fieldHandle enabled resolves selects loads replaces
  | instantiation enabled resolved named instantiates =>
    exact .instantiation enabled resolved named instantiates
  | interpolation enabled resolved named literals unnamed spread literal planned =>
    exact .interpolation enabled resolved named literals unnamed spread literal planned
  | binary enabled resolved named available => exact .binary enabled resolved named available
  | unary enabled resolved named => exact .unary enabled resolved named
  | conversion enabled resolved named => exact .conversion enabled resolved named
  | methodHandle enabled refers resolves selects loads replaces =>
    exact .methodHandle enabled refers resolves selects loads replaces

theorem Rewrites.of_expression {e : Expr} (h : Rewrites settings spelling .expression e result) :
    Rewrites settings spelling role' e result := by
  apply h.move
  intro hrole
  cases hrole

/-- Of its own annotations only the method decides whether a node is rewritten. -/
theorem Rewrites.reannotate {form : Form Expr} {annotations annotations' : Annotations}
    (h : Rewrites settings spelling role ⟨form, annotations⟩ result)
    (hmethod : Annotations.method? annotations' = Annotations.method? annotations) :
    ∃ result', Rewrites settings spelling role ⟨form, annotations'⟩ result' := by
  have hresolves {fullName : String} (resolves : Handle.ResolvesTo fullName annotations) :
      Handle.ResolvesTo fullName annotations' := by
    obtain ⟨method, resolved, named⟩ := resolves
    exact ⟨method, hmethod.trans resolved, named⟩
  cases h with
  | concatenation enabled resolved accepted unnamed strings =>
    exact ⟨_, .concatenation enabled (hmethod.trans resolved) accepted unnamed strings⟩
  | typeHandle enabled resolves selects isOperand =>
    exact ⟨_, .typeHandle enabled (hresolves resolves) selects isOperand⟩
  | fieldHandle enabled resolves selects loads replaces =>
    exact ⟨_, .fieldHandle enabled (hresolves resolves) selects loads replaces⟩
  | instantiation enabled resolved named instantiates =>
    exact ⟨_, .instantiation enabled (hmethod.trans resolved) named instantiates⟩
  | interpolation enabled resolved named literals unnamed spread literal planned =>
    exact ⟨_, .interpolation enabled (hmethod.trans resolved) named literals unnamed spread
      literal planned⟩
  | binary enabled resolved named available =>
    exact ⟨_, .binary enabled (hmethod.trans resolved) named available⟩
  | unary enabled resolved named => exact ⟨_, .unary enabled (hmethod.trans resolved) named⟩
  | conversion enabled resolved named =>
    exact ⟨_, .conversion enabled (hmethod.trans resolved) named⟩
  | truthTest enabled condition tests =>
    refine ⟨_, .truthTest enabled condition ?_⟩
    rw [OperatorCall.isTrueTest, hmethod]
    exact tests
  | methodHandle enabled refers resolves selects loads replaces =>
    exact ⟨_, .methodHandle enabled refers resolves selects loads replaces⟩

/-- So nothing changes where no method is appended and nothing is tested. -/
theorem Rewrites.of_append {form : Form Expr} {annotations appended : Annotations}
    (h : Rewrites settings spelling role ⟨form, annotations ++ appended⟩ result)
    (hmethod : Annotations.method? appended = none) (untested : Untested ⟨form, annotations⟩) :
    ∃ result', Rewrites settings spelling role' ⟨form, annotations⟩ result' := by
  obtain ⟨result', h'⟩ := h.reannotate (Annotations.method?_append hmethod annotations).symm
  exact ⟨result', h'.move fun _ => Or.inr untested⟩

/-- The annotations of a cast do not matter at all. -/
theorem Rewrites.reannotate_cast {type : TypeSyntax} {operand : Expr}
    {annotations annotations' : Annotations}
    (h : Rewrites settings spelling role ⟨.cast type operand, annotations⟩ result) :
    ∃ result', Rewrites settings spelling role ⟨.cast type operand, annotations'⟩ result' := by
  cases h with
  | methodHandle enabled refers resolves selects loads replaces =>
    exact ⟨_, .methodHandle enabled refers resolves selects loads replaces⟩

/-- An expression from which no handle is taken. -/
def OffersNoHandle (e : Expr) : Prop :=
  ∀ name target, Handle.Selects name target e →
    ¬ Handle.IsTypeOperand target ∧ Annotations.hasLoadToken target.annotations = false

/-- A single argument matters to a call only by the handle that it offers. -/
theorem Rewrites.replaceArgument {target argument argument' : Expr} {annotations : Annotations}
    (h : Rewrites settings spelling role ⟨.call target [argument], annotations⟩ result)
    (hoffers : OffersNoHandle argument) :
    ∃ result', Rewrites settings spelling role ⟨.call target [argument'], annotations⟩ result' := by
  cases h with
  | typeHandle enabled resolves selects isOperand =>
    exact absurd isOperand (hoffers _ _ selects).1
  | fieldHandle enabled resolves selects loads replaces =>
    rw [(hoffers _ _ selects).2] at loads
    cases loads
  | unary enabled resolved named => exact ⟨_, .unary enabled resolved named⟩
  | conversion enabled resolved named => exact ⟨_, .conversion enabled resolved named⟩
  | truthTest enabled condition tests => exact ⟨_, .truthTest enabled condition tests⟩

theorem offersNoHandle_of_namesMember {e : Expr} (h : Handle.NamesMember spelling e) :
    OffersNoHandle e := by
  intro name target hselects
  obtain ⟨annotations, hselects⟩ := hselects
  cases h with
  | field type member reference =>
    cases hselects
    constructor
    · intro hoperand
      rcases hoperand with ⟨_, hform⟩ | ⟨_, hform⟩
      · cases hform
      · cases hform
    · rfl
  | method => cases hselects

theorem every_selected {Q : Role → Expr → Prop} {name : String} {target e : Expr}
    (h : Expr.Every Q role e) (selects : Handle.Selects name target e) :
    Expr.Every Q .expression target := by
  obtain ⟨annotations, rfl⟩ := selects
  exact h.slots (.expression, target) (List.mem_singleton.mpr rfl)

theorem isInert_of_isTypeOperand {e : Expr} (h : Handle.IsTypeOperand e) (donor : Annotations) :
    IsInert (e.inheritInstructions donor) := by
  obtain ⟨form, annotations⟩ := e
  rcases h with ⟨type, hform⟩ | ⟨operand, hform⟩
  · cases hform
    exact isInert_of_isFixed rfl
  · cases hform
    exact isInert_of_isFixed rfl

variable (settings spelling)

/-- A property that a run establishes at every node, given another of the nodes before. -/
structure Invariant (P : Expr → Prop) (Q : Role → Expr → Prop) : Prop where
  /-- What the property before says of a node, it says whatever the parts are. -/
  reshape : ∀ {form : Form Expr} {annotations : Annotations} (g : Role → Expr → Expr),
    P ⟨form, annotations⟩ → P ⟨form.mapRoles g, annotations⟩
  declined : ∀ {role e}, P e → (∀ result, ¬ Rewrites settings spelling role e result) → Q role e
  inert : ∀ {role e}, IsInert e → Q role e
  /-- An argument becomes an operand. -/
  operand : ∀ {role e}, Q role e → Q .expression e
  /-- What stands under truth tests becomes the condition. -/
  tested : ∀ {role form annotations} (ranges : List InstructionRange),
    Untested ⟨form, annotations⟩ → Q role ⟨form, annotations⟩ →
    Q .condition ⟨form, annotations ++ Annotations.ofInstructions ranges⟩
  conversion : ∀ {role target argument annotations method} (operand : Expr),
    P ⟨.call target [argument], annotations⟩ → Annotations.method? annotations = some method →
    method.name = OperatorCall.explicitName →
    Q role ⟨.cast (spelling method.returnType) operand, annotations⟩
  /-- A token takes over annotations without a method, or those of the cast around it. -/
  token : ∀ {role token replacement appended}, (Annotations.method? appended = none ∨
      ∃ type operand, P ⟨.cast type operand, appended⟩) →
    Annotations.hasLoadToken token.annotations = true →
    Handle.Retargets spelling token replacement → Q .expression token →
    Q role (replacement.annotate appended)

namespace Invariant

open OperatorRecovery.Expr

variable {settings spelling} {P : Expr → Prop} {Q : Role → Expr → Prop}
  (inv : Invariant settings spelling P Q)
include inv

theorem every_operand {e : Expr} (h : Every Q role e) : Every Q .expression e :=
  h.move rfl (inv.operand h.self)

theorem every_fixed {form : Form Expr} {annotations : Annotations} (hfixed : form.isFixed = true)
    (hslots : ∀ slot ∈ form.slots, Every Q slot.1 slot.2) : Every Q role ⟨form, annotations⟩ :=
  (every_mk role form annotations).mpr ⟨inv.inert (isInert_of_isFixed hfixed), hslots⟩

theorem every_binary {op : BinaryOperator} {left right : Expr} (annotations : Annotations)
    (hleft : Every Q .expression left) (hright : Every Q .expression right) :
    Every Q role ⟨.binary op left right, annotations⟩ := by
  apply inv.every_fixed rfl
  simp only [Form.slots, List.forall_mem_cons]
  exact ⟨hleft, hright, List.forall_mem_nil _⟩

theorem every_chain {first : Expr} {rest : List Expr} (hfirst : Every Q .expression first)
    (hrest : ∀ e ∈ rest, Every Q .expression e) :
    Every Q .expression (Concatenation.chain first rest) := by
  induction rest generalizing first with
  | nil => exact hfirst
  | cons second rest ih =>
    obtain ⟨hsecond, hrest⟩ := List.forall_mem_cons.mp hrest
    exact ih (inv.every_binary [] hfirst hsecond) hrest

theorem every_shielded {e : Expr} (h : Every Q .expression e) :
    Every Q .expression (FormatPlan.shielded e) := by
  unfold FormatPlan.shielded
  split
  · apply inv.every_fixed rfl
    simp only [Form.slots, List.forall_mem_singleton]
    exact h
  · exact h

theorem every_build {segments : List FormatPlan.Segment} {arguments : List Expr}
    (h : ∀ argument ∈ arguments, Every Q .expression argument) :
    ∀ e ∈ (FormatPlan.build segments arguments).filterMap Piece.slot?, Every Q .expression e := by
  fun_induction FormatPlan.build segments arguments with
  | case1 => exact List.forall_mem_nil _
  | case2 text segments arguments ih => simpa [List.filterMap_cons, Piece.slot?] using ih h
  | case3 index spec segments e arguments ih =>
    obtain ⟨he, harguments⟩ := List.forall_mem_cons.mp h
    simp only [List.filterMap_cons, Piece.slot?, List.forall_mem_cons]
    exact ⟨inv.every_shielded he, ih harguments⟩
  | case4 index spec segments ih => exact ih h

theorem every_unaryForm {argument : Expr} (method : Method) (op : UnaryOperator)
    (annotations : Annotations) (h : Every Q .expression argument) :
    Every Q role ⟨OperatorCall.unaryForm method op argument, annotations⟩ := by
  unfold OperatorCall.unaryForm
  split
  · exact inv.every_binary annotations h (inv.every_fixed rfl (List.forall_mem_nil _))
  · apply inv.every_fixed rfl
    simp only [Form.slots, List.forall_mem_singleton]
    exact h

theorem every_memberOf (type : TypeSyntax) (name : String) (reference : Expr) :
    Every Q role (Handle.memberOf type name reference) := by
  apply inv.every_fixed rfl
  simp only [Form.slots, List.forall_mem_singleton]
  exact inv.every_fixed rfl (List.forall_mem_nil _)

theorem every_namesMember {e : Expr} (h : Handle.NamesMember spelling e) : Every Q role e := by
  cases h with
  | field type name reference => exact inv.every_memberOf type name reference
  | method type method reference =>
    rw [Handle.signature, Expr.ofForm, every_mk]
    refine ⟨inv.inert ⟨fun _ _ _ => rfl, fun _ _ hform => by cases hform⟩, ?_⟩
    simp only [Form.slots, List.forall_mem_cons, List.map_map, List.forall_mem_map]
    exact ⟨inv.every_memberOf type method.name reference, fun _ _ =>
      inv.every_fixed rfl (List.forall_mem_nil _)⟩

/-- Only the reference inside a token is new. -/
theorem slots_retargets {token replacement : Expr} (h : Every Q role token)
    (retargets : Handle.Retargets spelling token replacement) :
    ∀ slot ∈ replacement.form.slots, Every Q slot.1 slot.2 := by
  cases retargets with
  | kept => exact h.slots
  | @named target reference made annotations names =>
    have htarget : Every Q .target target := h.slots (.target, target) List.mem_cons_self
    simp only [Form.slots, List.map_cons, List.map_nil, List.forall_mem_cons]
    exact ⟨htarget, inv.every_namesMember names, List.forall_mem_nil _⟩

theorem every_token {token replacement : Expr} {appended : Annotations}
    (hannotations : Annotations.method? appended = none ∨
      ∃ type operand, P ⟨.cast type operand, appended⟩)
    (loads : Annotations.hasLoadToken token.annotations = true)
    (retargets : Handle.Retargets spelling token replacement) (h : Every Q .expression token) :
    Every Q role (replacement.annotate appended) := by
  have hparts := inv.slots_retargets h retargets
  exact (every_iff _ _).mpr ⟨inv.token hannotations loads retargets h.self, hparts⟩

theorem every_stripsTo {e inner : Expr} {ranges : List InstructionRange} (h : Every Q role e)
    (strips : StripsTo e inner ranges) : ∃ role', Every Q role' inner ∧ Untested inner := by
  induction strips generalizing role with
  | stop untested => exact ⟨role, h, untested⟩
  | @test target argument inner annotations ranges tests strips ih =>
    have hargument : Every Q .argument argument :=
      h.slots (.argument, argument) (List.mem_cons_of_mem _ (List.mem_singleton.mpr rfl))
    exact ih (hargument.operand inv.operand)

/-- A rewrite makes good nodes out of good parts. -/
theorem every_rewrites {e result : Expr} (h : Rewrites settings spelling role e result) (hP : P e)
    (hslots : ∀ slot ∈ e.form.slots, Every Q slot.1 slot.2) : Every Q role result := by
  cases h with
  | @concatenation target first second rest annotations =>
    have hoperands : ∀ e ∈ first :: second :: rest, Every Q .expression e := fun e he =>
      inv.every_operand (every_arguments hslots e he)
    obtain ⟨hfirst, hrest⟩ := List.forall_mem_cons.mp hoperands
    obtain ⟨left, right, own, hchain⟩ := Concatenation.exists_chain_eq first second rest
    have hevery := inv.every_chain hfirst hrest
    rw [hchain] at hevery ⊢
    exact hevery.move rfl (inv.inert (isInert_of_isFixed rfl))
  | @typeHandle target argument operand annotations enabled resolves selects isOperand =>
    have hoperand := every_selected (every_arguments hslots _ List.mem_cons_self) selects
    exact hoperand.move rfl (inv.inert (isInert_of_isTypeOperand isOperand annotations))
  | fieldHandle enabled resolves selects loads replaces =>
    have htoken := every_selected (every_arguments hslots _ List.mem_cons_self) selects
    exact inv.every_token (Or.inl (Annotations.method?_ofInstructions _)) loads
      (replaces.retargets spelling) htoken
  | instantiation => exact inv.every_fixed rfl (List.forall_mem_nil _)
  | @interpolation target format first rest annotations method text segments =>
    have hoperands : ∀ e ∈ first :: rest, Every Q .expression e := fun e he =>
      inv.every_operand (every_arguments hslots e (List.mem_cons_of_mem format he))
    apply inv.every_fixed rfl
    simp only [Form.slots, List.forall_mem_map]
    exact inv.every_build hoperands
  | @binary target left right annotations =>
    exact inv.every_binary annotations
      ((every_arguments hslots left List.mem_cons_self).operand inv.operand)
      ((every_arguments hslots right (List.mem_cons_of_mem _ List.mem_cons_self)).operand
        inv.operand)
  | @unary target argument annotations =>
    exact inv.every_unaryForm _ _ annotations
      ((every_arguments hslots argument List.mem_cons_self).operand inv.operand)
  | @conversion target argument annotations method enabled resolved named =>
    rw [every_mk]
    refine ⟨inv.conversion _ hP resolved named, ?_⟩
    simp only [Form.slots, List.forall_mem_singleton]
    exact (every_arguments hslots argument List.mem_cons_self).operand inv.operand
  | @truthTest target argument annotations enabled condition tests =>
    rw [OperatorCall.stripTrueTests_call tests]
    obtain ⟨form, own, ranges, hstrips, heq⟩ := OperatorCall.exists_stripsTo
      (Annotations.instructions annotations ++ []) (OperatorCall.operand argument)
    obtain ⟨role', hinner, huntested⟩ := inv.every_stripsTo
      ((every_arguments hslots argument List.mem_cons_self).operand inv.operand) hstrips
    rw [heq, condition]
    exact hinner.move rfl (inv.tested _ huntested hinner.self)
  | @methodHandle type target first token replacement rest callAnnotations annotations enabled
      refers resolves selects loads replaces =>
    have hcall : Every Q .expression ⟨.call target (first :: rest), callAnnotations⟩ :=
      hslots (.expression, _) (List.mem_singleton.mpr rfl)
    have htoken := every_selected (every_arguments hcall.slots _ List.mem_cons_self) selects
    exact inv.every_token (Or.inr ⟨type, _, hP⟩) loads replaces.retargets htoken

theorem every_recoverNode {e : Expr} (hP : P e)
    (hslots : ∀ slot ∈ e.form.slots, Every Q slot.1 slot.2) :
    Every Q role (recoverNode settings spelling role e) := by
  rcases @recoverNode_cases settings spelling role e with hrewrites | ⟨hself, hdeclined⟩
  · exact inv.every_rewrites hrewrites hP hslots
  · rw [hself]
    exact (every_iff role e).mpr ⟨inv.declined hP hdeclined, hslots⟩

/-- A run establishes the invariant at every node. -/
theorem every_recoverIn {e : Expr} (h : Every (fun _ => P) role e) :
    Every Q role (e.recoverIn settings spelling role) := by
  induction e using induction_on_parts generalizing role with
  | step e ih =>
    obtain ⟨form, annotations⟩ := e
    rw [recoverIn_mk, ← Form.mapRoles]
    refine inv.every_recoverNode (inv.reshape _ h.self) ?_
    rw [Form.slots_mapRoles, List.forall_mem_map]
    intro slot hslot
    exact ih slot.2 (Form.mem_parts_of_mem_slots hslot) (h.slots slot hslot)

theorem forall_nodes_recover {t : Tree} (h : ∀ node ∈ t.nodes, P node.2) :
    ∀ node ∈ (t.recover settings spelling).nodes, Q node.1 node.2 := by
  rw [Tree.forall_nodes_iff, Tree.roots_recover, List.forall_mem_map]
  intro root hroot
  exact inv.every_recoverIn ((t.forall_nodes_iff fun _ => P).mp h root hroot)

end Invariant

end Pass

end OperatorRecovery
