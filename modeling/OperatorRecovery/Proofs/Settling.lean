import OperatorRecovery.Proofs.Weights

/-!
Repeated runs settle. The work of a tree counts two for every call with a
resolved method and one for every cast. A call may become a cast, and a token
may take over the method of the cast around it, but every rewrite lowers the
work, whatever it copies or moves. A run that changes a tree therefore lowers its
work, and there are no more such runs than there is work at first.
-/

namespace OperatorRecovery

namespace Expr

def isResolvedCall (e : Expr) : Bool :=
  match e.form with
  | .call _ _ => e.method?.isSome
  | _ => false

def isCast (e : Expr) : Bool :=
  match e.form with
  | .cast _ _ => true
  | _ => false

end Expr

/-- Two for every call with a resolved method, and one for every cast. -/
def workOfNodes (nodes : List (Role × Expr)) : Nat :=
  2 * nodes.countP (·.2.isResolvedCall) + nodes.countP (·.2.isCast)

def Tree.work (t : Tree) : Nat := workOfNodes t.nodes

/-- The work at the outermost form alone. -/
def Form.work (form : Form ε) (annotations : Annotations) : Nat :=
  match form with
  | .call _ _ => if (Annotations.method? annotations).isSome then 2 else 0
  | .cast _ _ => 1
  | _ => 0

theorem Form.work_mapRoles (g : Role → ε → δ) (form : Form ε) (annotations : Annotations) :
    (form.mapRoles g).work annotations = form.work annotations := by
  cases form <;> rfl

theorem Form.work_map (g : ε → δ) (form : Form ε) (annotations : Annotations) :
    (form.map g).work annotations = form.work annotations := by
  cases form <;> rfl

theorem Form.work_append_le (form : Form ε) (as bs : Annotations) :
    form.work (as ++ bs) ≤ form.work as + 2 := by
  cases form with
  | call => simp only [work]; split <;> omega
  | _ => simp [work]

namespace Expr

/-- The work of an expression, which is the same in every role. -/
def work : Expr → Nat := fold fun form annotations => form.work annotations + form.parts.sum

theorem work_mk (form : Form Expr) (annotations : Annotations) :
    work ⟨form, annotations⟩ = form.work annotations + (form.parts.map work).sum := by
  rw [work, fold_mk, Form.work_map, Form.parts_map]

/-- What a rewrite makes has no work of its own but where it makes a cast, so most of its work
is found as for any weight. -/
theorem work_eq_weight : work = weight Form.work := by
  simp only [work, weight, Form.shape, Form.work_map]

theorem sparesReferences_work : SparesReferences Form.work where
  type _ := rfl
  member _ _ := rfl
  signature _ := rfl

theorem work_append_le (form : Form Expr) (as bs : Annotations) :
    work ⟨form, as ++ bs⟩ ≤ work ⟨form, as⟩ + 2 := by
  have hform := form.work_append_le as bs
  rw [work_mk, work_mk]
  omega

theorem work_append_ofInstructions (form : Form Expr) (as : Annotations)
    (ranges : List InstructionRange) :
    work ⟨form, as ++ Annotations.ofInstructions ranges⟩ = work ⟨form, as⟩ := by
  have hform : form.work (as ++ Annotations.ofInstructions ranges) = form.work as := by
    cases form <;> simp only [Form.work, Annotations.method?_append_ofInstructions]
  rw [work_mk, work_mk, hform]

theorem work_inheritInstructions (e : Expr) (donor : Annotations) :
    (e.inheritInstructions donor).work = e.work := by
  obtain ⟨form, annotations⟩ := e
  exact work_append_ofInstructions form annotations _

theorem work_annotate_le (e : Expr) (annotations : Annotations) :
    (e.annotate annotations).work ≤ e.work + 2 := by
  obtain ⟨form, own⟩ := e
  exact work_append_le form own annotations

theorem work_call {target : Expr} {arguments : List Expr} {annotations : Annotations}
    {method : Method} (resolved : Annotations.method? annotations = some method) :
    work ⟨.call target arguments, annotations⟩ =
      2 + target.work + (arguments.map work).sum := by
  simp [work_mk, Form.work, Form.parts, Form.slots, resolved, Function.comp_def, Nat.add_assoc]

end Expr

theorem Concatenation.work_form_chain (first second : Expr) (rest : List Expr)
    (annotations : Annotations) :
    Expr.work ⟨(chain first (second :: rest)).form, annotations⟩ =
      ((first :: second :: rest).map Expr.work).sum := by
  rw [Expr.work_eq_weight]
  exact Expr.weight_form_chain (fun _ => rfl) first second rest annotations

theorem FormatPlan.work_build_le (segments : List Segment) (arguments : List Expr) :
    (((build segments arguments).filterMap Piece.slot?).map Expr.work).sum ≤
      (arguments.map Expr.work).sum := by
  rw [Expr.work_eq_weight]
  exact Expr.weight_build_le (fun _ => rfl) segments arguments

theorem OperatorCall.work_operand (argument : Expr) : (operand argument).work = argument.work := by
  obtain ⟨form, annotations⟩ := argument
  unfold operand
  split
  · rename_i hform
    cases hform
    simp [Expr.work_mk, Form.work, Form.parts, Form.slots]
  · rfl

theorem OperatorCall.work_unaryForm (method : Method) (op : UnaryOperator) (argument : Expr)
    (annotations : Annotations) :
    Expr.work ⟨unaryForm method op argument, annotations⟩ = argument.work := by
  rw [Expr.work_eq_weight]
  exact Expr.weight_unaryForm (fun _ => rfl) (fun _ _ _ => rfl) rfl argument annotations

theorem OperatorCall.StripsTo.work_le {e inner : Expr} {ranges : List InstructionRange}
    (h : StripsTo e inner ranges) : inner.work ≤ e.work := by
  rw [Expr.work_eq_weight]
  exact Expr.weight_stripsTo_le h

theorem OperatorCall.work_stripTrueTests_le (stripped : List InstructionRange) (e : Expr) :
    (stripTrueTests stripped e).work ≤ e.work := by
  obtain ⟨form, annotations, ranges, hstrips, heq⟩ := exists_stripsTo stripped e
  rw [heq, Expr.work_append_ofInstructions]
  exact hstrips.work_le

namespace Handle

theorem Selects.work_eq {name : String} {target e : Expr} (h : Selects name target e) :
    e.work = target.work := by
  obtain ⟨annotations, rfl⟩ := h
  simp [Expr.work_mk, Form.work, Form.parts, Form.slots]

theorem Retargets.work_le {spelling : Spelling} {token replacement : Expr}
    (h : Retargets spelling token replacement) : replacement.work ≤ token.work := by
  rw [Expr.work_eq_weight]
  exact Expr.sparesReferences_work.weight_retargets_le h

end Handle

namespace Pass

variable {settings : Settings} {spelling : Spelling}

/-- Every rewrite lowers the work. -/
theorem Rewrites.work_lt {role : Role} {e result : Expr}
    (h : Rewrites settings spelling role e result) : result.work < e.work := by
  cases h with
  | concatenation enabled resolved =>
    rw [Expr.work_call resolved, Concatenation.work_form_chain]
    omega
  | typeHandle enabled resolves selects =>
    obtain ⟨method, resolved, _⟩ := resolves
    rw [Expr.work_call resolved, Expr.work_inheritInstructions, List.map_singleton,
      List.sum_singleton, selects.work_eq]
    omega
  | fieldHandle enabled resolves selects loads replaces =>
    obtain ⟨method, resolved, _⟩ := resolves
    have hreplacement := (replaces.retargets spelling).work_le
    rw [Expr.work_call resolved, Expr.work_inheritInstructions, List.map_cons, List.sum_cons,
      selects.work_eq]
    omega
  | instantiation enabled resolved =>
    rw [Expr.work_call resolved, Expr.work_mk]
    simp only [Form.work, Form.parts, Form.slots, List.map_nil, List.sum_nil]
    omega
  | @interpolation target format first rest annotations method text segments enabled resolved =>
    have hbuild := FormatPlan.work_build_le segments (first :: rest)
    have harguments : ((format :: first :: rest).map Expr.work).sum =
        format.work + ((first :: rest).map Expr.work).sum := by rw [List.map_cons, List.sum_cons]
    rw [Expr.work_call resolved, Expr.work_mk, harguments]
    simp only [Form.work, Form.parts, Form.slots, List.map_map, Function.comp_def, List.map_id']
    omega
  | binary enabled resolved =>
    rw [Expr.work_call resolved, Expr.work_mk]
    simp only [Form.work, Form.parts, Form.slots, List.map_cons, List.map_nil,
      OperatorCall.work_operand]
    omega
  | unary enabled resolved =>
    rw [Expr.work_call resolved, OperatorCall.work_unaryForm, OperatorCall.work_operand,
      List.map_singleton, List.sum_singleton]
    omega
  | conversion enabled resolved =>
    rw [Expr.work_call resolved, Expr.work_mk]
    simp only [Form.work, Form.parts, Form.slots, List.map_cons, List.map_nil, List.sum_cons,
      List.sum_nil, OperatorCall.work_operand]
    omega
  | @truthTest target argument annotations enabled condition tests =>
    obtain ⟨method, resolved, _⟩ := OperatorCall.isTrueTest_iff.mp tests
    have hstripped := OperatorCall.work_stripTrueTests_le
      (Annotations.instructions annotations ++ []) (OperatorCall.operand argument)
    rw [OperatorCall.work_operand] at hstripped
    rw [OperatorCall.stripTrueTests_call tests, Expr.work_call resolved, List.map_singleton,
      List.sum_singleton]
    omega
  | @methodHandle type target first token replacement rest callAnnotations annotations enabled
      refers resolves selects loads replaces =>
    obtain ⟨method, resolved, _⟩ := resolves
    -- The method of the cast may make a call out of the token a resolved one, which adds two;
    -- the cast and the call around the token, which are gone, had three.
    have hreplacement := replaces.retargets.work_le
    have hannotate := replacement.work_annotate_le annotations
    rw [Expr.work_mk]
    simp only [Form.work, Form.parts, Form.slots, Expr.work_call resolved, List.map_cons,
      List.map_nil, List.sum_cons, List.sum_nil, selects.work_eq]
    omega

theorem work_recoverNode_le (role : Role) (e : Expr) :
    (recoverNode settings spelling role e).work ≤ e.work := by
  rcases @recoverNode_cases settings spelling role e with h | ⟨h, _⟩
  · exact Nat.le_of_lt h.work_lt
  · exact Nat.le_of_eq (by rw [h])

end Pass

section Parts

variable {g : Role → Expr → Expr}

/-- Where every expression is kept or loses work, either all are kept or their sum is less. -/
theorem forall_eq_or_sum_work_lt (slots : List (Role × Expr))
    (h : ∀ slot ∈ slots, g slot.1 slot.2 = slot.2 ∨ (g slot.1 slot.2).work < slot.2.work) :
    (∀ slot ∈ slots, g slot.1 slot.2 = slot.2) ∨
      (slots.map fun slot => (g slot.1 slot.2).work).sum <
        (slots.map fun slot => slot.2.work).sum := by
  by_cases hkept : ∀ slot ∈ slots, g slot.1 slot.2 = slot.2
  · exact Or.inl hkept
  · right
    push Not at hkept
    obtain ⟨slot, hslot, hchanged⟩ := hkept
    apply List.sum_lt_sum
    · intro slot hslot
      rcases h slot hslot with heq | hlt
      · exact Nat.le_of_eq (by rw [heq])
      · exact Nat.le_of_lt hlt
    · exact ⟨slot, hslot, (h slot hslot).resolve_left hchanged⟩

theorem Expr.work_mapRoles (form : Form Expr) (annotations : Annotations) :
    Expr.work ⟨form.mapRoles g, annotations⟩ =
      form.work annotations + (form.slots.map fun slot => (g slot.1 slot.2).work).sum := by
  rw [work_mk, Form.work_mapRoles, Form.parts, Form.slots_mapRoles]
  simp only [List.map_map, Function.comp_def]

end Parts

section Runs

variable (settings : Settings) (spelling : Spelling)

variable {settings spelling} in
/-- Where a run over the parts lowers their work, a run over the whole does. -/
theorem Expr.slots_eq_or_work_lt (role : Role) (form : Form Expr) (annotations : Annotations)
    (h : ∀ slot ∈ form.slots, slot.2.recoverIn settings spelling slot.1 = slot.2 ∨
      (slot.2.recoverIn settings spelling slot.1).work < slot.2.work) :
    (∀ slot ∈ form.slots, slot.2.recoverIn settings spelling slot.1 = slot.2) ∨
      (Expr.recoverIn settings spelling role ⟨form, annotations⟩).work <
        Expr.work ⟨form, annotations⟩ := by
  rcases forall_eq_or_sum_work_lt
    (g := fun role part => part.recoverIn settings spelling role) form.slots h with hkept | hlt
  · exact Or.inl hkept
  · right
    rw [recoverIn_mk, ← Form.mapRoles]
    refine Nat.lt_of_le_of_lt (Pass.work_recoverNode_le role _) ?_
    rw [work_mapRoles, work_mk, Form.parts, List.map_map]
    exact Nat.add_lt_add_left hlt _

/-- A run over an expression keeps it or lowers its work. -/
theorem Expr.recoverIn_eq_or_work_lt (role : Role) (e : Expr) :
    e.recoverIn settings spelling role = e ∨
      (e.recoverIn settings spelling role).work < e.work := by
  induction e using induction_on_parts generalizing role with
  | step e ih =>
    obtain ⟨form, annotations⟩ := e
    rcases slots_eq_or_work_lt role form annotations fun slot hslot =>
      ih slot.2 (Form.mem_parts_of_mem_slots hslot) slot.1 with hkept | hlt
    · rw [recoverIn_mk, ← Form.mapRoles, Form.mapRoles_eq_self form hkept]
      rcases @Pass.recoverNode_cases settings spelling role ⟨form, annotations⟩ with h | ⟨h, _⟩
      · exact Or.inr h.work_lt
      · exact Or.inl h
    · exact Or.inr hlt

variable {settings spelling} in
/-- What a run keeps, it keeps in all its parts. -/
theorem Expr.slots_recoverIn_eq {role : Role} {form : Form Expr} {annotations : Annotations}
    (h : Expr.recoverIn settings spelling role ⟨form, annotations⟩ = ⟨form, annotations⟩) :
    ∀ slot ∈ form.slots, slot.2.recoverIn settings spelling slot.1 = slot.2 := by
  rcases slots_eq_or_work_lt role form annotations fun slot _ =>
    slot.2.recoverIn_eq_or_work_lt settings spelling slot.1 with hkept | hlt
  · exact hkept
  · rw [h] at hlt
    exact absurd hlt (Nat.lt_irrefl _)

end Runs

section Nodes

theorem Form.work_eq (form : Form Expr) (annotations : Annotations) :
    form.work annotations = 2 * (if Expr.isResolvedCall ⟨form, annotations⟩ then 1 else 0) +
      if Expr.isCast ⟨form, annotations⟩ then 1 else 0 := by
  cases form with
  | call target arguments =>
    cases hmethod : (Annotations.method? annotations).isSome <;>
      simp [work, Expr.isResolvedCall, Expr.isCast, Expr.method?, hmethod]
  | _ => rfl

theorem workOfNodes_cons (role : Role) (form : Form Expr) (annotations : Annotations)
    (nodes : List (Role × Expr)) :
    workOfNodes ((role, ⟨form, annotations⟩) :: nodes) =
      form.work annotations + workOfNodes nodes := by
  simp only [workOfNodes, Form.work_eq, List.countP_cons]
  omega

theorem workOfNodes_flatMap (nodesOf : α → List (Role × Expr)) (xs : List α) :
    workOfNodes (xs.flatMap nodesOf) = (xs.map fun x => workOfNodes (nodesOf x)).sum := by
  induction xs with
  | nil => rfl
  | cons x rest ih =>
    rw [List.flatMap_cons, List.map_cons, List.sum_cons, ← ih]
    simp only [workOfNodes, List.countP_append]
    omega

theorem Expr.workOfNodes_nodes (role : Role) (e : Expr) : workOfNodes (e.nodes role) = e.work := by
  induction e using induction_on_parts generalizing role with
  | step e ih =>
    obtain ⟨form, annotations⟩ := e
    rw [nodes_mk, workOfNodes_cons, workOfNodes_flatMap, work_mk, Form.parts, List.map_map]
    congr 2
    apply List.map_congr_left
    intro slot hslot
    exact ih slot.2 (Form.mem_parts_of_mem_slots hslot) slot.1

theorem Tree.work_eq (t : Tree) : t.work = (t.roots.map fun root => root.2.work).sum := by
  rw [work, nodes, workOfNodes_flatMap]
  simp only [Expr.workOfNodes_nodes]

end Nodes

section Runs

variable (settings : Settings) (spelling : Spelling)

theorem Tree.recover_eq_or_work_lt (t : Tree) :
    t.recover settings spelling = t ∨ (t.recover settings spelling).work < t.work := by
  have hroots := forall_eq_or_sum_work_lt
    (g := fun role e => e.recoverIn settings spelling role) t.roots fun root _ =>
      root.2.recoverIn_eq_or_work_lt settings spelling root.1
  rw [recover_eq_self_iff, work_eq, work_eq, roots_recover, List.map_map]
  exact hroots

/-- A step that lowers a measure whenever it changes something comes to rest within it. -/
theorem exists_isFixedPt_iterate {step : α → α} {measure : α → Nat}
    (h : ∀ a, step a = a ∨ measure (step a) < measure a) (a : α) :
    ∃ k ≤ measure a, Function.IsFixedPt step (step^[k] a) := by
  induction hn : measure a using Nat.strong_induction_on generalizing a with
  | h n ih =>
    subst hn
    rcases h a with hfixed | hlt
    · exact ⟨0, Nat.zero_le _, hfixed⟩
    · obtain ⟨k, hk, hfixed⟩ := ih (measure (step a)) hlt (step a) rfl
      exact ⟨k + 1, by omega, hfixed⟩

/-- Every run keeps a tree or lowers its work, so runs come to rest within the work at first. -/
theorem Tree.runs_settle (t : Tree) :
    (t.recover settings spelling = t ∨ (t.recover settings spelling).work < t.work) ∧
      ∃ runs ≤ t.work,
        Function.IsFixedPt (recover settings spelling) ((recover settings spelling)^[runs] t) :=
  ⟨t.recover_eq_or_work_lt settings spelling,
    exists_isFixedPt_iterate (recover_eq_or_work_lt settings spelling) t⟩

end Runs

end OperatorRecovery
