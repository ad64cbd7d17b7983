import OperatorRecovery.Proofs.NormalForm

/-!
The calls that the rules look for. Every rewrite starts from a call that resolves to a
method sought under its full name or under its simple name; the rewrite of casts finds
that call in the operand. A tree without such calls therefore stays what it is, whatever
the settings are and however types are spelled.
-/

namespace OperatorRecovery

/-- What every node has that has a property together with its parts. -/
theorem Expr.Every.with_parts {P Q : Role → Expr → Prop} {role : Role} {e : Expr}
    (h : Every P role e)
    (hnode : ∀ {role e}, P role e → (∀ slot ∈ e.form.slots, P slot.1 slot.2) → Q role e) :
    Every Q role e := by
  induction e using induction_on_parts generalizing role with
  | step e ih =>
    rw [every_iff]
    constructor
    · exact hnode h.self fun slot hslot => (h.slots slot hslot).self
    · intro slot hslot
      exact ih slot.2 (Form.mem_parts_of_mem_slots hslot) (h.slots slot hslot)

namespace Pass

/-- The full names that the rules look for. -/
def soughtNames : List String :=
  ["System.String.Concat", "System.String.Format", "System.Activator.CreateInstance",
   "System.Type.GetTypeFromHandle", "System.Reflection.FieldInfo.GetFieldFromHandle",
   "System.Reflection.MethodBase.GetMethodFromHandle"]

/-- Whether calls of the method may be rewritten. Operators are sought under their simple
names, whatever type declares them. -/
def isSought (method : Method) : Bool :=
  soughtNames.contains method.fullName ||
    (BinaryOperator.ofMetadataName? method.name).isSome ||
    (UnaryOperator.ofMetadataName? method.name).isSome ||
    method.name == "op_Explicit" || method.name == "op_True"

theorem isSought_of_fullName {method : Method} {fullName : String}
    (named : method.fullName = fullName) (sought : soughtNames.contains fullName = true) :
    isSought method = true := by
  rw [isSought, named, sought]
  rfl

theorem isSought_of_binary {method : Method} {op : BinaryOperator}
    (named : BinaryOperator.ofMetadataName? method.name = some op) : isSought method = true := by
  simp [isSought, named]

theorem isSought_of_unary {method : Method} {op : UnaryOperator}
    (named : UnaryOperator.ofMetadataName? method.name = some op) : isSought method = true := by
  simp [isSought, named]

/-- A call with a resolved method that is sought. -/
def isSoughtCall (e : Expr) : Bool :=
  match e.form with
  | .call _ _ => e.method?.any isSought
  | _ => false

theorem isSoughtCall_of_resolved {target : Expr} {arguments : List Expr}
    {annotations : Annotations} {method : Method}
    (resolved : Annotations.method? annotations = some method)
    (sought : isSought method = true) :
    isSoughtCall ⟨.call target arguments, annotations⟩ = true := by
  have hmethod : Expr.method? ⟨.call target arguments, annotations⟩ = some method := resolved
  rw [isSoughtCall, hmethod]
  exact sought

theorem isSoughtCall_of_resolvesTo {target : Expr} {arguments : List Expr}
    {annotations : Annotations} {fullName : String}
    (resolves : Handle.ResolvesTo fullName annotations)
    (sought : soughtNames.contains fullName = true) :
    isSoughtCall ⟨.call target arguments, annotations⟩ = true := by
  obtain ⟨method, resolved, named⟩ := resolves
  exact isSoughtCall_of_resolved resolved (isSought_of_fullName named sought)

variable {settings : Settings} {spelling : Spelling}

/-- Where a rewrite starts: at a sought call, or at a cast of one. -/
theorem Rewrites.isSoughtCall {role : Role} {e result : Expr}
    (h : Rewrites settings spelling role e result) :
    isSoughtCall e = true ∨
      ∃ slot ∈ e.form.slots, Pass.isSoughtCall slot.2 = true := by
  cases h with
  | @concatenation _ _ _ _ _ method enabled resolved accepted =>
    have hname : method.fullName = Concatenation.methodName := by
      simp only [Concatenation.accepts, Bool.and_eq_true, beq_iff_eq] at accepted
      exact accepted.1.1
    exact Or.inl (isSoughtCall_of_resolved resolved (isSought_of_fullName hname (by decide)))
  | typeHandle enabled resolves => exact Or.inl (isSoughtCall_of_resolvesTo resolves (by decide))
  | fieldHandle enabled resolves => exact Or.inl (isSoughtCall_of_resolvesTo resolves (by decide))
  | instantiation enabled resolved named =>
    exact Or.inl (isSoughtCall_of_resolved resolved (isSought_of_fullName named (by decide)))
  | interpolation enabled resolved named =>
    exact Or.inl (isSoughtCall_of_resolved resolved (isSought_of_fullName named (by decide)))
  | binary enabled resolved named =>
    exact Or.inl (isSoughtCall_of_resolved resolved (isSought_of_binary named))
  | unary enabled resolved named =>
    exact Or.inl (isSoughtCall_of_resolved resolved (isSought_of_unary named))
  | @conversion _ _ _ method enabled resolved named =>
    have hsought : isSought method = true := by
      simp [isSought, named, OperatorCall.explicitName]
    exact Or.inl (isSoughtCall_of_resolved resolved hsought)
  | truthTest enabled condition tests =>
    obtain ⟨method, resolved, named⟩ := OperatorCall.isTrueTest_iff.mp tests
    have hsought : isSought method = true := by simp [isSought, named, OperatorCall.trueName]
    exact Or.inl (isSoughtCall_of_resolved resolved hsought)
  | methodHandle enabled refers resolves =>
    exact Or.inr ⟨_, List.mem_singleton.mpr rfl, isSoughtCall_of_resolvesTo resolves (by decide)⟩

end Pass

/-- A run changes nothing in a tree without sought calls, annotations included. -/
theorem Tree.recover_eq_self_of_unsought (settings : Settings) (spelling : Spelling) (t : Tree)
    (unsought : ∀ node ∈ t.nodes, Pass.isSoughtCall node.2 = false) :
    t.recover settings spelling = t := by
  have hroots := (t.forall_nodes_iff fun _ e => Pass.isSoughtCall e = false).mp unsought
  rw [recover_eq_self_iff]
  intro root hroot
  rw [Expr.recoverIn_eq_self_iff]
  refine (hroots root hroot).with_parts ?_
  intro role e hself hparts result hrewrites
  rcases hrewrites.isSoughtCall with hsought | ⟨slot, hslot, hsought⟩
  · rw [hself] at hsought
    cases hsought
  · rw [hparts slot hslot] at hsought
    cases hsought

/-- `while (C.Test((MethodInfo)C.Find(x).op_Addition(y))) { Format("{0}", Concat(a, b)); }`, where
no symbol was found for the sum, and the names of the others are declared elsewhere. -/
def foreignCalls : Tree :=
  let type : ResolvedType := .named "N" "C" []
  let name (s : String) : Expr := .ofForm (.identifier s)
  let sum : Expr := ⟨.call (.ofForm (.member (.staticCall (.ofName type "Find") [name "x"])
    "op_Addition" [])) [name "y"], [.loadToken]⟩
  let condition := Expr.staticCall (.ofName type "op_Test")
    [⟨.cast (.ofName "MethodInfo") sum, [.resolvedType type]⟩]
  .stmt (.while condition [.expr (.staticCall (.ofName type "Format")
    [.ofForm (.literal (.string "\x7b0\x7d")), .staticCall (.ofName type "Concat")
      [⟨.identifier "a", [.resolvedType (.builtin .string)]⟩, name "b"]])])

theorem recover_foreignCalls :
    (∀ node ∈ foreignCalls.nodes, Pass.isSoughtCall node.2 = false) ∧
      foreignCalls.recover .initial (SpellingStyle.spell ⟨true, false⟩) = foreignCalls :=
  have unsought : ∀ node ∈ foreignCalls.nodes, Pass.isSoughtCall node.2 = false := by decide
  ⟨unsought, Tree.recover_eq_self_of_unsought .initial (SpellingStyle.spell ⟨true, false⟩)
    foreignCalls unsought⟩

end OperatorRecovery
