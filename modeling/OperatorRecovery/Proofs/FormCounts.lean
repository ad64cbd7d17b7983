import OperatorRecovery.Proofs.Weights

/-!
What a run makes. Every rule takes the parts of its result from the call or cast that it
rewrites, and makes the nodes around them new. Which shapes the new nodes have depends on
the rules that are enabled alone, so of every other kind of node a run leaves at most as
many as there were. A hole is of no kind that a rule makes: where a part is taken out, the
slot goes with the node that is replaced, or a new reference fills it.
-/

namespace OperatorRecovery

namespace Pass

/-- The shapes of the nodes that the enabled rules make. -/
inductive Makes (settings : Settings) : Form Unit → Prop
  | sum (enabled : settings.isEnabled .stringConcat = true) : Makes settings (.binary .add () ())
  | type (enabled : settings.isEnabled .handleUnwrapping = true) (type : TypeSyntax) :
    Makes settings (.typeReference type)
  | member (enabled : settings.isEnabled .handleUnwrapping = true) (name : String) :
    Makes settings (.member () name [])
  | signature (enabled : settings.isEnabled .handleUnwrapping = true) (parameters : List Unit) :
    Makes settings (.call () parameters)
  | creation (enabled : settings.isEnabled .genericInstantiation = true) (type : TypeSyntax) :
    Makes settings (.creation type [])
  | interpolated (enabled : settings.interpolatesStrings = true) (pieces : List (Piece Unit)) :
    Makes settings (.interpolated pieces)
  | shield (enabled : settings.interpolatesStrings = true) : Makes settings (.parenthesized ())
  | binary (enabled : settings.isEnabled .binaryOperators = true) {op : BinaryOperator}
    (available : OperatorCall.isAvailable settings op = true) : Makes settings (.binary op () ())
  | unary (enabled : settings.isEnabled .unaryOperators = true) (op : UnaryOperator) :
    Makes settings (.unary op ())
  | step (enabled : settings.isEnabled .unaryOperators = true) {op : UnaryOperator}
    {step : BinaryOperator} (steps : OperatorCall.decimalStep? op = some step) :
    Makes settings (.binary step () ())
  | one (enabled : settings.isEnabled .unaryOperators = true) :
    Makes settings (.literal (.decimal 1))
  | conversion (enabled : settings.isEnabled .explicitConversion = true) (type : TypeSyntax) :
    Makes settings (.cast type ())

end Pass

/-- Counts the nodes of a kind, which their shape decides. -/
def Weight.ofKind (kind : Form Unit → Bool) : Weight := fun shape _ => (kind shape).toNat

namespace Expr

def count (kind : Form Unit → Bool) (e : Expr) : Nat := e.weight (.ofKind kind)

theorem count_mk (kind : Form Unit → Bool) (form : Form Expr) (annotations : Annotations) :
    count kind ⟨form, annotations⟩ =
      (kind form.shape).toNat + (form.parts.map (count kind)).sum :=
  weight_mk _ form annotations

/-- Annotations do not count. -/
theorem count_reannotate (kind : Form Unit → Bool) {e e' : Expr} (hform : e'.form = e.form) :
    e'.count kind = e.count kind := by
  obtain ⟨form, annotations⟩ := e
  obtain ⟨form', annotations'⟩ := e'
  cases hform
  rw [count_mk, count_mk]

theorem countP_nodes (kind : Form Unit → Bool) (role : Role) (e : Expr) :
    (e.nodes role).countP (fun node => kind node.2.form.shape) = e.count kind := by
  induction e using induction_on_parts generalizing role with
  | step e ih =>
    obtain ⟨form, annotations⟩ := e
    have hparts : form.slots.map (fun slot => (slot.2.nodes slot.1).countP
        fun node => kind node.2.form.shape) = form.parts.map (count kind) := by
      rw [Form.parts, List.map_map]
      exact List.map_congr_left fun slot hslot =>
        ih slot.2 (Form.mem_parts_of_mem_slots hslot) slot.1
    rw [nodes_mk, List.countP_cons, List.countP_flatMap, count_mk, ← hparts, Nat.add_comm]
    cases kind form.shape <;> rfl

end Expr

namespace Pass

open OperatorRecovery.Expr

variable {settings : Settings} {spelling : Spelling} {kind : Form Unit → Bool}

section Unmade

variable (unmade : ∀ shape, Makes settings shape → kind shape = false)
include unmade

theorem weight_eq_zero_of_makes {shape : Form Unit} (h : Makes settings shape)
    (annotations : Annotations) : Weight.ofKind kind shape annotations = 0 := by
  rw [Weight.ofKind, unmade shape h]
  rfl

theorem sparesReferences_of_unmade (enabled : settings.isEnabled .handleUnwrapping = true) :
    SparesReferences (.ofKind kind) where
  type type := weight_eq_zero_of_makes unmade (.type enabled type) []
  member name := weight_eq_zero_of_makes unmade (.member enabled name)
  signature parameters := weight_eq_zero_of_makes unmade (.signature enabled parameters) []

/-- A rewrite keeps nodes or drops them, and makes none of a kind that no rule makes. -/
theorem Rewrites.count_le {role : Role} {e result : Expr}
    (h : Rewrites settings spelling role e result) : result.count kind ≤ e.count kind := by
  have hzero {shape : Form Unit} (hmakes : Makes settings shape) :=
    weight_eq_zero_of_makes unmade hmakes
  cases h with
  | concatenation enabled =>
    rw [count, count, weight_form_chain (hzero (.sum enabled)), weight_call]
    omega
  | @typeHandle target argument operand annotations enabled resolves selects =>
    have hsame : (operand.inheritInstructions annotations).count kind = operand.count kind :=
      count_reannotate kind rfl
    rw [hsame]
    exact Nat.le_trans (weight_selects_le selects) (weight_argument_le _ target argument [] _)
  | @fieldHandle target first token replacement rest annotations enabled resolves selects loads
      replaces =>
    have hreplacement := (sparesReferences_of_unmade unmade enabled).weight_retargets_le
      (replaces.retargets spelling)
    have hsame : (replacement.inheritInstructions annotations).count kind =
        replacement.count kind := count_reannotate kind rfl
    rw [hsame]
    exact Nat.le_trans (Nat.le_trans hreplacement (weight_selects_le selects))
      (weight_argument_le _ target first rest _)
  | @instantiation target annotations method parameter enabled =>
    rw [count_mk]
    simp [Form.shape, Form.map, Form.parts, Form.slots,
      unmade _ (.creation enabled (spelling (.parameter parameter)))]
  | @interpolation target format first rest annotations method text segments enabled =>
    have hbuild := weight_build_le (hzero (.shield enabled)) segments (first :: rest)
    have harguments : ((format :: first :: rest).map (weight (.ofKind kind))).sum =
        format.weight (.ofKind kind) + ((first :: rest).map (weight (.ofKind kind))).sum := by
      rw [List.map_cons, List.sum_cons]
    rw [count, count, weight_interpolated, Form.shape, Form.map, hzero (.interpolated enabled _),
      weight_call, harguments]
    omega
  | @binary target left right annotations method op enabled resolved named available =>
    have hleft := weight_operand_le (w := .ofKind kind) left
    have hright := weight_operand_le (w := .ofKind kind) right
    rw [count, count, weight_binary, hzero (.binary enabled available), weight_call]
    simp only [List.map_cons, List.map_nil, List.sum_cons, List.sum_nil]
    omega
  | @unary target argument annotations method op enabled =>
    rw [count, weight_unaryForm (hzero (.unary enabled op))
      (fun step steps => hzero (.step enabled steps)) (hzero (.one enabled) [])]
    exact weight_operand_call_le target argument annotations
  | @conversion target argument annotations method enabled =>
    rw [count, weight_single _ annotations rfl, Form.shape, Form.map,
      hzero (.conversion enabled _), Nat.zero_add]
    exact weight_operand_call_le target argument annotations
  | @truthTest target argument annotations =>
    obtain ⟨form, own, ranges, hstrips, heq⟩ :=
      OperatorCall.exists_stripsTo [] ⟨.call target [argument], annotations⟩
    have hinner : count kind ⟨form, own⟩ ≤ count kind ⟨.call target [argument], annotations⟩ :=
      weight_stripsTo_le hstrips
    rw [heq]
    exact Nat.le_trans (Nat.le_of_eq (count_reannotate kind rfl)) hinner
  | @methodHandle type target first token replacement rest callAnnotations annotations enabled
      refers resolves selects loads replaces =>
    have hreplacement := (sparesReferences_of_unmade unmade enabled).weight_retargets_le
      replaces.retargets
    have htoken := Nat.le_trans hreplacement (weight_selects_le selects)
    have hcall := weight_argument_le (.ofKind kind) target first rest callAnnotations
    have hsame : (replacement.annotate annotations).count kind = replacement.count kind :=
      count_reannotate kind rfl
    rw [hsame, count, count, weight_single _ annotations rfl]
    omega

theorem count_recoverNode_le (role : Role) (e : Expr) :
    (recoverNode settings spelling role e).count kind ≤ e.count kind := by
  rcases @recoverNode_cases settings spelling role e with h | ⟨h, _⟩
  · exact h.count_le unmade
  · exact Nat.le_of_eq (by rw [h])

end Unmade

end Pass

namespace Tree

variable {settings : Settings} {spelling : Spelling} {kind : Form Unit → Bool}

def count (kind : Form Unit → Bool) (t : Tree) : Nat :=
  t.nodes.countP fun node => kind node.2.form.shape

theorem count_eq (kind : Form Unit → Bool) (t : Tree) :
    t.count kind = (t.roots.map fun root => root.2.count kind).sum := by
  rw [count, nodes, List.countP_flatMap]
  simp only [Function.comp_def, Expr.countP_nodes]

/-- Of a kind that no enabled rule makes, a run leaves at most as many nodes as there were. -/
theorem count_recover_le
    (unmade : ∀ shape, Pass.Makes settings shape → kind shape = false) (t : Tree) :
    (t.recover settings spelling).count kind ≤ t.count kind := by
  rw [count_eq, count_eq, roots_recover, List.map_map]
  apply List.sum_le_sum
  intro root _
  exact Expr.weight_recoverIn_le (Pass.count_recoverNode_le unmade) root.1 root.2

/-- Where there was no node of a kind, a run leaves none unless a rule makes it. -/
theorem forall_nodes_recover_of_unmade (kind : Form Unit → Bool)
    (unmade : ∀ shape, Pass.Makes settings shape → kind shape = false) {t : Tree}
    (h : ∀ node ∈ t.nodes, kind node.2.form.shape = false) :
    ∀ node ∈ (t.recover settings spelling).nodes, kind node.2.form.shape = false := by
  have hnone : t.count kind = 0 := List.countP_eq_zero.mpr fun node hnode => by simp [h node hnode]
  have hle : (t.recover settings spelling).count kind ≤ t.count kind := count_recover_le unmade t
  have hcount : (t.recover settings spelling).count kind = 0 := by omega
  intro node hnode
  exact eq_false_of_ne_true (List.countP_eq_zero.mp hcount node hnode)

end Tree

theorem Form.isHole_shape (form : Form ε) : form.shape.isHole = form.isHole := by
  cases form <;> rfl

/-- No rule makes a hole. -/
theorem Pass.Makes.isHole_eq_false {settings : Settings} {shape : Form Unit}
    (h : Makes settings shape) : shape.isHole = false := by
  cases h <;> rfl

/-- A run over a tree without holes leaves no hole behind. -/
theorem Tree.isHole_recover (settings : Settings) (spelling : Spelling) (t : Tree)
    (h : ∀ node ∈ t.nodes, node.2.isHole = false) :
    ∀ node ∈ (t.recover settings spelling).nodes, node.2.isHole = false := by
  have hshapes : ∀ node ∈ t.nodes, node.2.form.shape.isHole = false := by
    intro node hnode
    rw [Form.isHole_shape]
    exact h node hnode
  intro node hnode
  have hshape := forall_nodes_recover_of_unmade Form.isHole
    (fun _ makes => makes.isHole_eq_false) hshapes node hnode
  rw [Form.isHole_shape] at hshape
  exact hshape

/-- `Concat(s, (MethodInfo)GetMethodFromHandle(load(M).MethodHandle, typeof(D).TypeHandle))`. -/
def declaredHandle : Tree :=
  let method : Method := ⟨"M", .named "N" "C" [], true, [⟨"x", .builtin .int32⟩], .builtin .void, []⟩
  let reference : Expr := ⟨.identifier "M", [.symbol (.method method)]⟩
  let token : Expr := ⟨.call (.ofForm (.identifier "load")) [reference], [.loadToken]⟩
  let declaring : Expr := .ofForm (.typeOf (.ofName "D"))
  let handle := Expr.staticCall
    (.ofName (.named "System.Reflection" "MethodBase" []) "GetMethodFromHandle")
    [.ofForm (.member token "MethodHandle" []), .ofForm (.member declaring "TypeHandle" [])]
  .stmt (.expr (.staticCall (.ofName (.builtin .string) "Concat")
    [⟨.identifier "s", [.resolvedType (.builtin .string)]⟩,
      .ofForm (.cast (.ofName "MethodInfo") handle)]))

theorem isHole_recover_declaredHandle :
    (∀ node ∈ declaredHandle.nodes, node.2.isHole = false) ∧
      ∀ node ∈ (declaredHandle.recover .initial (SpellingStyle.spell ⟨true, false⟩)).nodes,
        node.2.isHole = false :=
  have whole : ∀ node ∈ declaredHandle.nodes, node.2.isHole = false := by decide
  ⟨whole, Tree.isHole_recover .initial (SpellingStyle.spell ⟨true, false⟩) declaredHandle whole⟩

end OperatorRecovery
