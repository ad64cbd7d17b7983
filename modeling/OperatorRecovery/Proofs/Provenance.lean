import OperatorRecovery.Proofs.Nodes
import OperatorRecovery.Proofs.Rewrites
import OperatorRecovery.Proofs.TruthTests

/-!
Where the annotations of the output come from. A rule that makes a new node gives it the
annotations of the call, no more and no less. A rule that leaves an inner node in the place of
the call keeps what that node was annotated with and appends instruction ranges alone, so the
node denotes what it denoted before. The token of a method handle takes over all that the cast
around it had. In every case the ranges of the node that was replaced come last.
-/

namespace OperatorRecovery

/-- A reference put into a token leaves the token's own annotations as they were. -/
theorem Handle.Retargets.annotations_eq {spelling : Spelling} {token replacement : Expr}
    (h : Retargets spelling token replacement) : replacement.annotations = token.annotations := by
  cases h <;> rfl

namespace Annotations

/-- What is inherited comes last. -/
theorem suffix_inheritInstructions (as donor : Annotations) :
    instructions donor <:+ instructions (inheritInstructions as donor) := by
  rw [instructions_inheritInstructions]
  exact List.suffix_append _ _

/-- Instruction ranges denote nothing. -/
theorem symbol?_append_ofInstructions (as : Annotations) (ranges : List InstructionRange) :
    symbol? (as ++ ofInstructions ranges) = symbol? as := by
  have hranges : symbol? (ofInstructions ranges) = none := by cases ranges <;> rfl
  rw [symbol?_append, hranges, Option.or_none]

end Annotations

namespace OperatorCall

/-- The ranges of a test follow those of all tests inside it. -/
theorem StripsTo.suffix_ranges {target argument inner : Expr} {annotations : Annotations}
    {ranges : List InstructionRange}
    (h : StripsTo ⟨.call target [argument], annotations⟩ inner ranges)
    (tests : isTrueTest annotations = true) : Annotations.instructions annotations <:+ ranges := by
  cases h with
  | stop untested =>
    have hnone : isTrueTest annotations = false := untested target argument rfl
    rw [tests] at hnone
    cases hnone
  | test tests strips => exact List.suffix_append _ _

end OperatorCall

namespace Pass

open OperatorCall (StripsTo)

variable {settings : Settings} {spelling : Spelling} {role : Role}

/-- A rule turns the call into the result. -/
def RewritesBy (settings : Settings) (spelling : Spelling) (role : Role) (rule : Rule)
    (call result : Expr) : Prop :=
  ∃ method, call.method? = some method ∧
    recoverBy? settings spelling role method call rule = some result

theorem exists_rewritesBy_of_dispatch? {call result : Expr}
    (h : dispatch? settings spelling role call = some result) :
    ∃ rule, RewritesBy settings spelling role rule call result := by
  obtain ⟨method, resolved, hrules⟩ := Option.bind_eq_some_iff.mp h
  obtain ⟨rule, _, hrule⟩ := List.exists_of_findSome?_eq_some hrules
  exact ⟨rule, method, resolved, hrule⟩

/-- The inner node that outlives a call, and the instruction ranges that it takes over. -/
inductive Survives : Rule → Expr → Expr → List InstructionRange → Prop
  | handle {target first survivor : Expr} {rest : List Expr} {annotations : Annotations}
    (selects : Handle.Selects "TypeHandle" survivor first ∨
      Handle.Selects "FieldHandle" survivor first) :
    Survives .handleUnwrapping ⟨.call target (first :: rest), annotations⟩ survivor
      (Annotations.instructions annotations)
  | tested {call survivor : Expr} {ranges : List InstructionRange}
    (strips : StripsTo call survivor ranges) : Survives .operatorTrue call survivor ranges

/-- How the result of a rule comes by its annotations. A surviving token may name its member
on another type, which changes the reference inside it and none of its own annotations. -/
def Inherits (spelling : Spelling) (rule : Rule) (call result : Expr) : Prop :=
  match rule with
  | .handleUnwrapping | .operatorTrue => ∃ survivor kept ranges,
    Survives rule call survivor ranges ∧ Handle.Retargets spelling survivor kept ∧
      result = ⟨kept.form, survivor.annotations ++ Annotations.ofInstructions ranges⟩ ∧
      Annotations.symbol? result.annotations = Annotations.symbol? survivor.annotations
  | _ => result.annotations = call.annotations

/-- What takes the place of a call as it was, or with another reference inside. -/
theorem inherits_inheritInstructions {target first survivor kept : Expr} {rest : List Expr}
    {annotations : Annotations} (selects : Handle.Selects "TypeHandle" survivor first ∨
      Handle.Selects "FieldHandle" survivor first)
    (retargets : Handle.Retargets spelling survivor kept) :
    Inherits spelling .handleUnwrapping ⟨.call target (first :: rest), annotations⟩
      (kept.inheritInstructions annotations) := by
  refine ⟨survivor, kept, _, .handle selects, retargets, ?_, ?_⟩
  · rw [← retargets.annotations_eq]
    rfl
  · rw [← retargets.annotations_eq]
    exact Annotations.symbol?_append_ofInstructions _ _

theorem inherits_of_recoverBy? {target result : Expr} {arguments : List Expr}
    {annotations : Annotations} {method : Method} {rule : Rule}
    (h : recoverBy? settings spelling role method ⟨.call target arguments, annotations⟩ rule =
      some result) :
    Inherits spelling rule ⟨.call target arguments, annotations⟩ result := by
  cases rule <;> simp only [recoverBy?, Option.ite_none_right_eq_some] at h
  case stringConcat =>
    obtain ⟨_, _, _, _, _, _, _, rfl⟩ := Concatenation.recover?_eq_some_iff.mp h.2
    rfl
  case handleUnwrapping =>
    rcases Option.or_eq_some_iff.mp h.2 with htype | ⟨_, hfield⟩
    · obtain ⟨_, _, _, operand, heq, _, selects, _, rfl⟩ := Handle.type?_eq_some_iff.mp htype
      cases heq
      exact inherits_inheritInstructions (.inl selects) (.kept operand)
    · obtain ⟨_, _, _, _, token, _, heq, _, selects, _, replaces, rfl⟩ :=
        Handle.field?_eq_some_iff.mp hfield
      cases heq
      exact inherits_inheritInstructions (.inr selects) (replaces.retargets spelling)
  case genericInstantiation =>
    obtain ⟨_, _, _, _, rfl⟩ := Instantiation.recover?_eq_some_iff.mp h.2
    rfl
  case stringInterpolation =>
    obtain ⟨_, _, _, _, _, _, _, _, _, _, _, _, rfl⟩ :=
      Interpolation.recover?_eq_some_iff.mp h.2
    rfl
  case binaryOperators =>
    obtain ⟨_, _, _, _, _, _, rfl⟩ := OperatorCall.binary?_eq_some_iff.mp h.2
    rfl
  case unaryOperators =>
    obtain ⟨_, _, _, _, rfl⟩ := OperatorCall.unary?_eq_some_iff.mp h.2
    rfl
  case explicitConversion =>
    obtain ⟨_, _, _, rfl⟩ := OperatorCall.explicit?_eq_some_iff.mp h.2
    rfl
  case operatorTrue =>
    obtain ⟨argument, rfl, _, rfl⟩ := OperatorCall.truth?_eq_some_iff.mp h.2
    obtain ⟨form, own, ranges, strips, heq⟩ :=
      OperatorCall.exists_stripsTo [] ⟨.call target [argument], annotations⟩
    rw [List.append_nil] at heq
    refine ⟨⟨form, own⟩, _, ranges, .tested strips, .kept _, heq, ?_⟩
    rw [heq]
    exact Annotations.symbol?_append_ofInstructions own ranges

/-- The ranges of the node that a rewrite replaces come last. -/
theorem Rewrites.suffix_instructions {e result : Expr}
    (h : Rewrites settings spelling role e result) :
    Annotations.instructions e.annotations <:+ Annotations.instructions result.annotations := by
  cases h with
  | concatenation => exact List.suffix_rfl
  | instantiation => exact List.suffix_rfl
  | interpolation => exact List.suffix_rfl
  | binary => exact List.suffix_rfl
  | unary => exact List.suffix_rfl
  | conversion => exact List.suffix_rfl
  | typeHandle => exact Annotations.suffix_inheritInstructions _ _
  | fieldHandle => exact Annotations.suffix_inheritInstructions _ _
  | @truthTest target argument annotations _ _ tests =>
    obtain ⟨form, own, ranges, strips, heq⟩ :=
      OperatorCall.exists_stripsTo [] ⟨.call target [argument], annotations⟩
    rw [heq, List.append_nil, Annotations.instructions_append,
      Annotations.instructions_ofInstructions]
    exact (strips.suffix_ranges tests).trans (List.suffix_append _ _)
  | methodHandle =>
    rw [Expr.annotate_annotations, Annotations.instructions_append]
    exact List.suffix_append _ _

end Pass

/-- A run over the parts of a node leaves its annotations alone, and the rewrite of the node
itself keeps its ranges at the end. -/
theorem Expr.suffix_instructions_recoverIn (settings : Settings) (spelling : Spelling)
    (role : Role) (e : Expr) :
    Annotations.instructions e.annotations <:+
      Annotations.instructions (e.recoverIn settings spelling role).annotations := by
  obtain ⟨form, annotations⟩ := e
  rw [recoverIn_mk, ← Form.mapRoles]
  rcases @Pass.recoverNode_cases settings spelling role
    ⟨form.mapRoles fun role part => part.recoverIn settings spelling role, annotations⟩ with
    hrewrites | ⟨hkept, _⟩
  · exact hrewrites.suffix_instructions
  · exact ⟨[], by simp only [hkept, List.nil_append]⟩

/-- The provenance of every node is at the end of what a run leaves in its place. A rewritten
call hands its annotations on as the rule that took it has it, and a collapsed cast adds its own
to those of the token. -/
theorem Expr.annotations_recoverIn (settings : Settings) (spelling : Spelling) (role : Role) :
    (∀ e : Expr, Annotations.instructions e.annotations <:+
      Annotations.instructions (e.recoverIn settings spelling role).annotations) ∧
    (∀ target arguments annotations result,
      Pass.dispatch? settings spelling role ⟨.call target arguments, annotations⟩ = some result →
      (∃ rule, Pass.RewritesBy settings spelling role rule ⟨.call target arguments, annotations⟩
        result) ∧
      ∀ rule, Pass.RewritesBy settings spelling role rule ⟨.call target arguments, annotations⟩
          result →
        Pass.Inherits spelling rule ⟨.call target arguments, annotations⟩ result) ∧
    ∀ cast result, Handle.method? spelling cast = some result →
      ∃ type target first rest callAnnotations token kept,
        cast.form = .cast type ⟨.call target (first :: rest), callAnnotations⟩ ∧
        Handle.Selects "MethodHandle" token first ∧ Handle.Retargets spelling token kept ∧
        result = ⟨kept.form, token.annotations ++ cast.annotations⟩ := by
  refine ⟨suffix_instructions_recoverIn settings spelling role, ?_, ?_⟩
  · intro target arguments annotations result hdispatch
    refine ⟨Pass.exists_rewritesBy_of_dispatch? hdispatch, ?_⟩
    intro rule hrule
    obtain ⟨method, _, hrecover⟩ := hrule
    exact Pass.inherits_of_recoverBy? hrecover
  · intro cast result hmethod
    obtain ⟨type, target, first, rest, callAnnotations, annotations, token, kept, rfl, _, _,
      selects, _, replaces, rfl⟩ := Handle.method?_eq_some_iff.mp hmethod
    refine ⟨type, target, first, rest, callAnnotations, token, kept, rfl, selects,
      replaces.retargets, ?_⟩
    rw [← replaces.retargets.annotations_eq]
    rfl

/-- `op_True(in op_True(x))`, from the instructions 1 to 6, 2 to 5 and 3 to 4. -/
def provenTests : Expr :=
  let test : Method := ⟨"op_True", .named "N" "C" [], true, [], .builtin .boolean, []⟩
  let x : Expr := ⟨.identifier "x", [.instructions [⟨3, 4⟩]]⟩
  let inner := (Expr.staticCall test [x]).annotate [.instructions [⟨2, 5⟩]]
  (Expr.staticCall test [.ofForm (.directed .readonly inner)]).annotate [.instructions [⟨1, 6⟩]]

/-- The ranges of the outer test come after those of the inner one. -/
theorem annotations_recoverIn_provenTests :
    ∃ result, Pass.dispatch? .initial (SpellingStyle.spell ⟨true, false⟩) .condition provenTests =
        some result ∧
      Annotations.instructions result.annotations = [⟨3, 4⟩, ⟨2, 5⟩, ⟨1, 6⟩] ∧
      Pass.Inherits (SpellingStyle.spell ⟨true, false⟩) .operatorTrue provenTests result :=
  ⟨_, rfl, rfl, ((Expr.annotations_recoverIn .initial (SpellingStyle.spell ⟨true, false⟩)
    .condition).2.1 _ _ _ _ rfl).2 .operatorTrue ⟨_, rfl, rfl⟩⟩

end OperatorRecovery
