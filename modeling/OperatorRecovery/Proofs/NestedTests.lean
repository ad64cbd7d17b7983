import OperatorRecovery.Proofs.InPlace

/-!
Nested truth tests. The argument of a test can be a test again, passed by readonly reference or
not. Collapsing the outermost one takes the place of a test with its argument for as long as the
argument tests as well, so a nest of any depth is left with what the innermost test is about. The
ranges of all tests come behind its annotations as one annotation, from the inside out.
-/

namespace OperatorRecovery.OperatorCall

/-- A call of the operator `true` on one argument. -/
inductive IsTestOf : Expr → Expr → Prop
  | call {target argument : Expr} {annotations : Annotations} {method : Method}
    (resolved : Annotations.method? annotations = some method) (named : method.name = "op_True") :
    IsTestOf ⟨.call target [argument], annotations⟩ argument

/-- What an argument passes on, which is not the marker of a readonly reference outside. -/
inductive Passes : Expr → Expr → Prop
  | marked (inner : Expr) (marker : Annotations) :
    Passes ⟨.directed .readonly inner, marker⟩ inner
  | plain {e : Expr} (unmarked : ∀ inner marker, e ≠ ⟨.directed .readonly inner, marker⟩) :
    Passes e e

/-- An expression that is made of tests, listed from the outside in, around a core. -/
inductive Nested : Expr → List Expr → Expr → Prop
  | core (e : Expr) : Nested e [] e
  | test {call argument inner core : Expr} {calls : List Expr} (tests : IsTestOf call argument)
    (passes : Passes argument inner) (rest : Nested inner calls core) :
    Nested call (call :: calls) core

/-- The ranges of the tests, those of an inner test before those of an outer one. -/
def testedRanges (calls : List Expr) : List InstructionRange :=
  calls.reverse.flatMap fun call => Annotations.instructions call.annotations

section Nests

variable {e argument inner x : Expr} {calls : List Expr} {ranges : List InstructionRange}
  {target : Expr} {annotations : Annotations} {method : Method}

theorem isTrueTest_eq_true_iff : isTrueTest annotations = true ↔
    ∃ method, Annotations.method? annotations = some method ∧ method.name = "op_True" := by
  rw [isTrueTest, Option.any_eq_true]
  simp only [beq_iff_eq, trueName]

theorem isTestOf_iff : IsTestOf e argument ↔
    ∃ target, e.form = .call target [argument] ∧ isTrueTest e.annotations = true := by
  constructor
  · rintro ⟨resolved, named⟩
    exact ⟨_, rfl, isTrueTest_eq_true_iff.mpr ⟨_, resolved, named⟩⟩
  · obtain ⟨form, annotations⟩ := e
    rintro ⟨target, rfl, htests⟩
    obtain ⟨method, resolved, named⟩ := isTrueTest_eq_true_iff.mp htests
    exact .call resolved named

theorem untested_iff : Untested x ↔ ∀ argument, ¬IsTestOf x argument := by
  simp only [isTestOf_iff, not_exists, not_and, Bool.not_eq_true]
  exact forall_comm

theorem Passes.operand_eq (h : Passes argument inner) : operand argument = inner := by
  cases h with
  | marked inner marker => rfl
  | plain unmarked => exact operand_eq_self unmarked

/-- Stripping gives what it leads to, with the ranges on the way behind it. -/
theorem StripsTo.stripTrueTests_eq (strips : StripsTo e x ranges)
    (stripped : List InstructionRange) : stripTrueTests stripped e =
      ⟨x.form, x.annotations ++ Annotations.ofInstructions (ranges ++ stripped)⟩ := by
  induction strips generalizing stripped with
  | @stop e untested =>
    -- Every expression strips to something, and this one only to itself.
    obtain ⟨form, annotations, ranges, hstrips, heq⟩ := exists_stripsTo stripped e
    cases hstrips with
    | stop => exact heq
    | test tests strips => exact absurd tests (by simp [untested _ _ rfl])
  | test tests strips ih => rw [stripTrueTests_call tests, ih, List.append_assoc]

theorem Nested.stripsTo (nested : Nested e calls x) (untested : Untested x) :
    StripsTo e x (testedRanges calls) := by
  induction nested with
  | core e => exact .stop untested
  | test tests passes rest ih =>
    obtain ⟨resolved, named⟩ := tests
    rw [testedRanges, List.reverse_cons, List.flatMap_append, List.flatMap_singleton]
    refine .test (isTrueTest_eq_true_iff.mpr ⟨_, resolved, named⟩) ?_
    rw [passes.operand_eq]
    exact ih untested

/-- A nest of tests collapses at once to its core, whatever its depth. The core keeps its form,
and the ranges of all tests follow its annotations from the inside out, as one annotation, or none
if there are no ranges. -/
theorem collapse_nested {call : Expr} (nested : Nested call (call :: calls) x)
    (untested : ∀ argument, ¬IsTestOf x argument) (resolved : call.method? = some method) :
    let result : Expr := ⟨x.form, x.annotations ++
      Annotations.ofInstructions (testedRanges (call :: calls))⟩
    (Edit.collapse method).perform call = (true, result) ∧ truth? method call = some result := by
  intro result
  have hresult : truth? method call = some result := by
    have hstrips := (nested.stripsTo (untested_iff.mpr untested)).stripTrueTests_eq []
    rw [List.append_nil] at hstrips
    cases nested with
    | test tests passes rest =>
      obtain ⟨hmethod, named⟩ := tests
      cases hmethod.symm.trans resolved
      change (if method.name == trueName then some (stripTrueTests [] _) else none) = _
      rw [named, hstrips]
      rfl
  rw [Edit.perform_collapse, hresult]
  exact ⟨rfl, rfl⟩

theorem collapse_nested_threeTests :
    let test (passed : Expr) (ranges : List Annotation) : Expr :=
      ⟨.call .hole [passed],
        .symbol (.method (.ofName (.ofName "Logic" "Fuzzy") "op_True")) :: ranges⟩
    let marked (inner : Expr) : Expr := .ofForm (.directed .readonly inner)
    let x : Expr := ⟨.identifier "f", [.loadToken]⟩
    let innermost := test (marked x) [.instructions [⟨0, 3⟩], .instructions [⟨3, 4⟩]]
    let middle := test innermost []
    let outermost := test (marked middle) [.instructions [⟨4, 9⟩]]
    Nested outermost [outermost, middle, innermost] x ∧
      truth? (.ofName (.ofName "Logic" "Fuzzy") "op_True") outermost =
        some ⟨.identifier "f", [.loadToken, .instructions [⟨0, 3⟩, ⟨3, 4⟩, ⟨4, 9⟩]]⟩ := by
  intro test marked x innermost middle outermost
  have hnested : Nested outermost [outermost, middle, innermost] x :=
    .test (.call rfl rfl) (.marked _ _) <|
      .test (.call rfl rfl) (.plain (by simp [innermost, test])) <|
        .test (.call rfl rfl) (.marked _ _) (.core x)
  have huntested : ∀ argument, ¬IsTestOf x argument := by simp [isTestOf_iff, x]
  exact ⟨hnested, (collapse_nested hnested huntested rfl).2⟩

end Nests

end OperatorRecovery.OperatorCall
