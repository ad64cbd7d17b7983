import OperatorRecovery.Proofs.FormatPlans
import OperatorRecovery.Proofs.Nodes
import OperatorRecovery.Proofs.Rewrites
import OperatorRecovery.Proofs.TruthTests

/-!
The nodes that rules put around the parts of a call. A property that every such node has as soon
as its parts have it passes from the operands of a rule to what the rule makes of them. If the
property also passes from a node to its parts and does not depend on annotations, then all rewrites
keep it, except that a conversion has to answer for the cast that it makes.
-/

namespace OperatorRecovery

/-- The forms of the nodes that rules make, apart from casts. -/
def Form.isMade : Form ε → Bool
  | .literal _ | .typeReference _ | .member .. | .call .. | .binary .. | .unary .. | .creation ..
  | .interpolated _ | .parenthesized _ => true
  | _ => false

/-- What a made node has if its parts have it. -/
structure Accrues (Q : Expr → Prop) : Prop where
  make : ∀ {form : Form Expr} {annotations : Annotations}, form.isMade = true →
    (∀ part ∈ form.parts, Q part) → Q ⟨form, annotations⟩

namespace Accrues

variable {Q : Expr → Prop} (accrues : Accrues Q) {annotations : Annotations} {e : Expr}
include accrues

theorem binary {op : BinaryOperator} {left right : Expr} (hleft : Q left) (hright : Q right) :
    Q ⟨.binary op left right, annotations⟩ := by
  apply accrues.make rfl
  simp only [Form.parts, Form.slots, List.map_cons, List.map_nil, List.forall_mem_cons]
  exact ⟨hleft, hright, List.forall_mem_nil _⟩

theorem chain {first : Expr} {rest : List Expr} (h : ∀ e ∈ first :: rest, Q e) :
    Q (Concatenation.chain first rest) := by
  induction rest generalizing first with
  | nil => exact h first List.mem_cons_self
  | cons second rest ih =>
    obtain ⟨hfirst, hsecond, hrest⟩ := by simpa only [List.forall_mem_cons] using h
    exact ih (List.forall_mem_cons.mpr ⟨accrues.binary hfirst hsecond, hrest⟩)

theorem shielded (h : Q e) : Q (FormatPlan.shielded e) := by
  unfold FormatPlan.shielded
  split
  · exact accrues.make rfl (List.forall_mem_singleton.mpr h)
  · exact h

theorem interpolated {text : List Char} {arguments : List Expr}
    {segments : List FormatPlan.Segment}
    (planned : FormatPlan.plan text arguments.length = .ok segments)
    (h : ∀ argument ∈ arguments, Q argument) :
    Q ⟨.interpolated (FormatPlan.build segments arguments), annotations⟩ := by
  have hslots := FormatPlan.slots_build (FormatPlan.plan_eq_ok_iff.mp planned).2.length_indices
  apply accrues.make rfl
  rw [Form.parts, Form.slots, hslots, List.forall_mem_map, List.forall_mem_map,
    List.forall_mem_map]
  exact fun argument hargument => accrues.shielded (h argument hargument)

theorem unaryForm (method : Method) (op : UnaryOperator) (h : Q e) :
    Q ⟨OperatorCall.unaryForm method op e, annotations⟩ := by
  unfold OperatorCall.unaryForm
  split
  · exact accrues.binary h (accrues.make rfl (List.forall_mem_nil _))
  · exact accrues.make rfl (List.forall_mem_singleton.mpr h)

theorem namesMember {spelling : Spelling} (h : Handle.NamesMember spelling e) : Q e := by
  have htype (type : TypeSyntax) : Q (.ofForm (.typeReference type)) :=
    accrues.make rfl (List.forall_mem_nil _)
  have hmember (type : TypeSyntax) (name : String) (reference : Expr) :
      Q (Handle.memberOf type name reference) :=
    accrues.make rfl (List.forall_mem_singleton.mpr (htype type))
  cases h with
  | field type name reference => exact hmember type name reference
  | method type method reference =>
    apply accrues.make rfl
    simp only [Form.parts, Form.slots, List.map_cons, List.forall_mem_cons, List.map_map,
      List.forall_mem_map]
    exact ⟨hmember type method.name reference, fun _ _ => htype _⟩

end Accrues

/-- What made nodes and their parts have together, whatever their annotations are. -/
structure Hereditary (Q : Expr → Prop) : Prop extends Accrues Q where
  of_mem : ∀ {e part : Expr}, Q e → part ∈ e.form.parts → Q part
  reannotate : ∀ {e e' : Expr}, Q e → e'.form = e.form → Q e'

namespace Hereditary

variable {Q : Expr → Prop} (hereditary : Hereditary Q) {e : Expr}
include hereditary

theorem operand (h : Q e) : Q (OperatorCall.operand e) := by
  unfold OperatorCall.operand
  split
  · rename_i inner hform
    exact hereditary.of_mem h (by rw [hform]; exact List.mem_singleton.mpr rfl)
  · exact h

theorem stripsTo {inner : Expr} {ranges : List InstructionRange}
    (strips : OperatorCall.StripsTo e inner ranges) (h : Q e) : Q inner := by
  induction strips with
  | stop => exact h
  | test tests strips ih =>
    exact ih (hereditary.operand
      (hereditary.of_mem h (List.mem_cons_of_mem _ List.mem_cons_self)))

theorem selected {name : String} {target : Expr} (selects : Handle.Selects name target e)
    (h : Q e) : Q target := by
  obtain ⟨annotations, rfl⟩ := selects
  exact hereditary.of_mem h (List.mem_singleton.mpr rfl)

/-- Only the reference inside a token is new. -/
theorem retargets {spelling : Spelling} {replacement : Expr}
    (retargets : Handle.Retargets spelling e replacement) (h : Q e) : Q replacement := by
  cases retargets with
  | kept => exact h
  | named names =>
    apply hereditary.make rfl
    simp only [Form.parts, Form.slots, List.map_cons, List.map_nil, List.forall_mem_cons]
    exact ⟨hereditary.of_mem h List.mem_cons_self, hereditary.namesMember names,
      List.forall_mem_nil _⟩

/-- A rewrite keeps what the parts of the call have, if a conversion does. -/
theorem rewrites {settings : Settings} {spelling : Spelling} {role : Role} {result : Expr}
    (h : Pass.Rewrites settings spelling role e result) (hparts : ∀ part ∈ e.form.parts, Q part)
    (hconversion : ∀ {target argument annotations method},
      e = ⟨.call target [argument], annotations⟩ →
      settings.isEnabled .explicitConversion = true →
      Annotations.method? annotations = some method → method.name = OperatorCall.explicitName →
      Q ⟨.cast (spelling method.returnType) (OperatorCall.operand argument), annotations⟩) :
    Q result := by
  have harguments : ∀ argument ∈ e.form.arguments, Q argument := fun argument hargument =>
    hparts argument (Form.mem_parts_of_mem_slots (Form.mem_slots_of_mem_arguments hargument))
  cases h with
  | concatenation => exact hereditary.reannotate (hereditary.chain harguments) rfl
  | typeHandle enabled resolves selects isOperand =>
    exact hereditary.reannotate (hereditary.selected selects (harguments _ List.mem_cons_self)) rfl
  | fieldHandle enabled resolves selects loads replaces =>
    have htoken := hereditary.selected selects (harguments _ List.mem_cons_self)
    exact hereditary.reannotate (hereditary.retargets (replaces.retargets spelling) htoken) rfl
  | instantiation => exact hereditary.make rfl (List.forall_mem_nil _)
  | interpolation enabled resolved named literals unnamed spread literal planned =>
    exact hereditary.interpolated planned (List.forall_mem_cons.mp harguments).2
  | binary =>
    simp only [Form.arguments, List.forall_mem_cons] at harguments
    exact hereditary.binary (hereditary.operand harguments.1) (hereditary.operand harguments.2.1)
  | unary =>
    exact hereditary.unaryForm _ _ (hereditary.operand (harguments _ List.mem_cons_self))
  | conversion enabled resolved named => exact hconversion rfl enabled resolved named
  | @truthTest target argument annotations enabled condition tests =>
    rw [OperatorCall.stripTrueTests_call tests]
    obtain ⟨form, own, ranges, hstrips, heq⟩ := OperatorCall.exists_stripsTo
      (Annotations.instructions annotations ++ []) (OperatorCall.operand argument)
    rw [heq]
    have hargument := hereditary.operand (harguments argument List.mem_cons_self)
    exact hereditary.reannotate (hereditary.stripsTo hstrips hargument) rfl
  | @methodHandle type target first token replacement rest callAnnotations annotations enabled
      refers resolves selects loads replaces =>
    have hcall := hparts ⟨.call target (first :: rest), callAnnotations⟩
      (List.mem_singleton.mpr rfl)
    have hfirst := hereditary.of_mem hcall (List.mem_cons_of_mem _ List.mem_cons_self)
    exact hereditary.reannotate (hereditary.retargets replaces.retargets
      (hereditary.selected selects hfirst)) rfl

end Hereditary

end OperatorRecovery
