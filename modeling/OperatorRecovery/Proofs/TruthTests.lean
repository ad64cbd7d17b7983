import OperatorRecovery.OperatorCall

/-!
Truth tests. A truth test is a call of the operator `true` with one argument, and
it tests the argument without an outer `in`. Stripping passes through the tests
on the outside to the first expression that is none. That expression stays as it
is, except that the instruction ranges of the tests are appended to its own, those
of an inner test before those of an outer one.
-/

namespace OperatorRecovery.OperatorCall

/-- The outermost form is no truth test. -/
def Untested (e : Expr) : Prop :=
  ∀ target argument, e.form = .call target [argument] → isTrueTest e.annotations = false

theorem untested_cast (type : TypeSyntax) (operand : Expr) (annotations : Annotations) :
    Untested ⟨.cast type operand, annotations⟩ := by
  intro target argument hform
  cases hform

/-- Stripping the tests outside leads to an expression, over the given ranges. -/
inductive StripsTo : Expr → Expr → List InstructionRange → Prop
  | stop {e : Expr} (untested : Untested e) : StripsTo e e []
  | test {target argument inner : Expr} {annotations : Annotations}
    {ranges : List InstructionRange} (tests : isTrueTest annotations = true)
    (strips : StripsTo (operand argument) inner ranges) :
    StripsTo ⟨.call target [argument], annotations⟩ inner
      (ranges ++ Annotations.instructions annotations)

/-- One step through a test. -/
theorem stripTrueTests_call {target argument : Expr} {annotations : Annotations}
    (tests : isTrueTest annotations = true) (stripped : List InstructionRange) :
    stripTrueTests stripped ⟨.call target [argument], annotations⟩ =
      stripTrueTests (Annotations.instructions annotations ++ stripped) (operand argument) := by
  obtain ⟨form, marker⟩ := argument
  cases form with
  | directed direction inner => cases direction <;> simp [stripTrueTests, tests, operand]
  | _ => simp [stripTrueTests, tests, operand]

theorem exists_stripsTo (stripped : List InstructionRange) (e : Expr) :
    ∃ form annotations ranges, StripsTo e ⟨form, annotations⟩ ranges ∧
      stripTrueTests stripped e =
        ⟨form, annotations ++ Annotations.ofInstructions (ranges ++ stripped)⟩ := by
  fun_induction stripTrueTests stripped e with
  | case1 stripped target inner marker annotations tests ih =>
    obtain ⟨form, own, ranges, hstrips, heq⟩ := ih
    exact ⟨form, own, _, .test tests hstrips, by rw [heq, List.append_assoc]⟩
  | case2 stripped target inner marker annotations tests =>
    exact ⟨_, _, [], .stop fun _ _ _ => eq_false_of_ne_true tests, rfl⟩
  | case3 stripped target argument annotations unmarked tests ih =>
    obtain ⟨form, own, ranges, hstrips, heq⟩ := ih
    refine ⟨form, own, ranges ++ Annotations.instructions annotations, .test tests ?_, ?_⟩
    · rw [operand_eq_self unmarked]
      exact hstrips
    · rw [heq, List.append_assoc]
  | case4 stripped target argument annotations unmarked tests =>
    exact ⟨_, _, [], .stop fun _ _ _ => eq_false_of_ne_true tests, rfl⟩
  | case5 stripped form annotations unmarked single =>
    refine ⟨form, annotations, [], .stop ?_, rfl⟩
    intro target argument hform
    exact absurd hform (single target argument)

end OperatorRecovery.OperatorCall
