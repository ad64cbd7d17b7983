import Mathlib.Data.List.Induction
import OperatorRecovery.Concatenation

/-!
Chains of additions mean concatenation. An addition joins texts as soon as one of its operands is
a string, and its result is a string then; otherwise it may do anything. A chain leans to the
left, so a string among its first two operands makes every addition in it a concatenation, and the
chain has the text of all its operands in order, as the call had.
-/

namespace OperatorRecovery

namespace ResolvedType

theorem isString_iff {t : ResolvedType} : t.isString = true ↔ t = .builtin .string := by
  constructor
  · intro h
    rw [isString, isBuiltin, beq_iff_eq] at h
    exact eq_builtin_of_builtin? h
  · rintro rfl
    rw [isString, isBuiltin, builtin?_builtin]
    rfl

end ResolvedType

namespace Concatenation

/-- The operands added from the left, without annotations on any addition. -/
inductive IsSum : List Expr → Expr → Prop
  | operand (e : Expr) : IsSum [e] e
  | add {es : List Expr} {left : Expr} (sum : IsSum es left) (e : Expr) :
    IsSum (es ++ [e]) (.ofForm (.binary .add left e))

/-- A call whose arguments may be added up instead. -/
structure Accepts (method : Method) (arguments : List Expr) : Prop where
  isStatic : method.isStatic = true
  named : method.fullName = "System.String.Concat"
  expanded : ∀ parameter ∈ method.parameters, parameter.type.isArray = false
  positional : ∀ argument ∈ arguments, argument.isNamed = false
  string : ∃ first second rest, arguments = first :: second :: rest ∧
    (first.staticType? = some (.builtin .string) ∨ second.staticType? = some (.builtin .string))

section Recovery

variable {method : Method} {call result : Expr} {arguments : List Expr}

theorem isString_iff {e : Expr} : isString e = true ↔ e.staticType? = some (.builtin .string) := by
  rw [isString, Option.any_eq_true]
  constructor
  · rintro ⟨t, htype, hstring⟩
    rw [htype, ResolvedType.isString_iff.mp hstring]
  · intro h
    exact ⟨_, h, ResolvedType.isString_iff.mpr rfl⟩

theorem accepts_eq_true_iff : accepts method = true ↔
    method.fullName = "System.String.Concat" ∧ method.isStatic = true ∧
      ∀ parameter ∈ method.parameters, parameter.type.isArray = false := by
  simp [accepts, methodName, and_assoc]

theorem isSum_chain (first : Expr) (rest : List Expr) :
    IsSum (first :: rest) (chain first rest) := by
  induction rest using List.reverseRecOn with
  | nil => exact .operand first
  | append_singleton rest last ih =>
    have hchain : chain first (rest ++ [last]) =
        .ofForm (.binary .add (chain first rest) last) := by
      rw [chain, List.foldl_append]
      rfl
    rw [hchain, ← List.cons_append]
    exact ih.add last

theorem IsSum.ne_nil {es : List Expr} {e : Expr} (h : IsSum es e) : es ≠ [] := by
  cases h <;> simp

theorem IsSum.eq_of_singleton {x e : Expr} (h : IsSum [x] e) : e = x := by
  generalize hoperands : [x] = operands at h
  cases h with
  | operand =>
    cases hoperands
    rfl
  | add sum last =>
    obtain ⟨hnil, _⟩ := List.append_singleton_inj.mp ((List.nil_append [x]).trans hoperands)
    exact absurd hnil.symm sum.ne_nil

/-- A sum of two operands or more adds its last operand to a sum of the others. -/
theorem IsSum.exists_left {es : List Expr} {last e : Expr} (h : IsSum (es ++ [last]) e)
    (hes : es ≠ []) : ∃ left, IsSum es left ∧ e = .ofForm (.binary .add left last) := by
  generalize hoperands : es ++ [last] = operands at h
  cases h with
  | operand =>
    obtain ⟨hnil, _⟩ := List.append_singleton_inj.mp (hoperands.trans (List.nil_append [_]).symm)
    exact absurd hnil hes
  | @add es' left sum last' =>
    obtain ⟨rfl, rfl⟩ := List.append_singleton_inj.mp hoperands
    exact ⟨left, sum, rfl⟩

theorem recover?_eq_some_iff_accepts : recover? method call = some result ↔
    Accepts method call.arguments ∧ ∃ first second rest,
      call.arguments = first :: second :: rest ∧
        result = ⟨(chain first (second :: rest)).form, call.annotations⟩ := by
  unfold recover?
  rcases call.arguments with _ | ⟨first, _ | ⟨second, rest⟩⟩
  · simp
  · simp
  · have hcondition : (accepts method && !(first :: second :: rest).any Expr.isNamed &&
        (isString first || isString second)) = true ↔
          Accepts method (first :: second :: rest) := by
      simp only [Bool.and_eq_true, Bool.or_eq_true, accepts_eq_true_iff, isString_iff,
        Bool.not_eq_true', List.any_eq_false, Bool.not_eq_true]
      constructor
      · rintro ⟨⟨⟨named, isStatic, expanded⟩, positional⟩, string⟩
        exact ⟨isStatic, named, expanded, positional, first, second, rest, rfl, string⟩
      · rintro ⟨isStatic, named, expanded, positional, _, _, _, ⟨⟩, string⟩
        exact ⟨⟨⟨named, isStatic, expanded⟩, positional⟩, string⟩
    simp only [Option.ite_none_right_eq_some, Option.some.injEq, hcondition]
    refine and_congr_right fun _ => ⟨?_, ?_⟩
    · rintro rfl
      exact ⟨first, second, rest, rfl, rfl⟩
    · rintro ⟨_, _, _, ⟨⟩, rfl⟩
      rfl

theorem isSome_recover?_iff : (recover? method call).isSome = true ↔
    Accepts method call.arguments := by
  rw [Option.isSome_iff_exists]
  constructor
  · rintro ⟨result, h⟩
    exact (recover?_eq_some_iff_accepts.mp h).1
  · intro h
    obtain ⟨first, second, rest, harguments, _⟩ := h.string
    exact ⟨_, recover?_eq_some_iff_accepts.mpr ⟨h, first, second, rest, harguments, rfl⟩⟩

end Recovery

section Meaning

universe u

/-- What arguments stand for when an addition joins texts as soon as one operand is a string. An
argument may have another value at another place, and an addition without a string is anything. -/
structure Reading (V : Type u) where
  value : Nat → Expr → V
  add : V → V → V
  text : V → String
  IsString : V → Prop
  isString_value : ∀ place e, e.staticType? = some (.builtin .string) → IsString (value place e)
  isString_add : ∀ a b, IsString a ∨ IsString b → IsString (add a b)
  text_add : ∀ a b, IsString a ∨ IsString b → text (add a b) = text a ++ text b

namespace Reading

variable {V : Type u} (reading : Reading V)

/-- The value of an expression that adds up the operands behind the first one. -/
def evaluate : Nat → Expr → V
  | place + 1, ⟨.binary .add left right, _⟩ =>
    reading.add (evaluate place left) (reading.value (place + 1) right)
  | place, e => reading.value place e

/-- The texts of arguments, one after the other. -/
def textOf (arguments : List Expr) : String :=
  String.join (arguments.mapIdx fun place e => reading.text (reading.value place e))

theorem textOf_append_singleton (es : List Expr) (e : Expr) :
    reading.textOf (es ++ [e]) =
      reading.textOf es ++ reading.text (reading.value es.length e) := by
  simp [textOf, List.mapIdx_append]

theorem evaluate_zero (e : Expr) : reading.evaluate 0 e = reading.value 0 e := by
  obtain ⟨form, annotations⟩ := e
  rfl

theorem evaluate_sum (place : Nat) (left right : Expr) (annotations : Annotations) :
    reading.evaluate (place + 1) ⟨.binary .add left right, annotations⟩ =
      reading.add (reading.evaluate place left) (reading.value (place + 1) right) := rfl

/-- Every addition of a sum is a concatenation if one of the first two operands is a string: the
first addition has that operand, and every later one the result of the addition before it. -/
theorem text_evaluate_sum {first second e : Expr} {rest : List Expr}
    (string : reading.IsString (reading.value 0 first) ∨
      reading.IsString (reading.value 1 second))
    (sum : IsSum (first :: second :: rest) e) :
    reading.IsString (reading.evaluate (rest.length + 1) e) ∧
      reading.text (reading.evaluate (rest.length + 1) e) =
        reading.textOf (first :: second :: rest) := by
  induction rest using List.reverseRecOn generalizing e with
  | nil =>
    have hpair : IsSum ([first] ++ [second]) e := sum
    obtain ⟨left, hleft, rfl⟩ := hpair.exists_left (List.cons_ne_nil _ _)
    rw [hleft.eq_of_singleton]
    have hevaluate : reading.evaluate (0 + 1) (.ofForm (.binary .add first second)) =
        reading.add (reading.value 0 first) (reading.value 1 second) := by
      rw [Expr.ofForm, evaluate_sum, evaluate_zero]
    rw [List.length_nil, hevaluate, reading.text_add _ _ string]
    exact ⟨reading.isString_add _ _ string, by simp [textOf]⟩
  | append_singleton rest x ih =>
    rw [← List.cons_append, ← List.cons_append] at sum
    obtain ⟨left, hleft, rfl⟩ := sum.exists_left (List.cons_ne_nil _ _)
    obtain ⟨hstring, htext⟩ := ih hleft
    have hevaluate : reading.evaluate ((rest ++ [x]).length + 1) (.ofForm (.binary .add left x)) =
        reading.add (reading.evaluate (rest.length + 1) left)
          (reading.value (rest.length + 2) x) := by
      rw [List.length_append, Expr.ofForm]
      exact evaluate_sum ..
    rw [hevaluate, ← List.cons_append, ← List.cons_append, textOf_append_singleton, ← htext]
    exact ⟨reading.isString_add _ _ (.inl hstring), reading.text_add _ _ (.inl hstring)⟩

end Reading

/-- A call is accepted exactly if its method joins its arguments one by one, at least two and by
position, and the first or the second is a string. The result adds up exactly the arguments in
order, with the annotations of the call on the outermost addition alone; and however arguments are
read, it is a string with the texts of the arguments one after the other. -/
theorem joins_arguments (method : Method) (call : Expr) :
    ((recover? method call).isSome = true ↔ Accepts method call.arguments) ∧
    ∀ result, recover? method call = some result →
      (∃ es left last, call.arguments = es ++ [last] ∧ IsSum es left ∧
        result = ⟨.binary .add left last, call.annotations⟩) ∧
      ∀ {V : Type u} (reading : Reading V),
        let value := reading.evaluate (call.arguments.length - 1) result
        reading.IsString value ∧ reading.text value = reading.textOf call.arguments := by
  refine ⟨isSome_recover?_iff, fun result h => ?_⟩
  obtain ⟨haccepts, first, second, rest, harguments, rfl⟩ := recover?_eq_some_iff_accepts.mp h
  have hsplit : first :: second :: rest =
      (first :: second :: rest).dropLast ++ [(first :: second :: rest).getLast nofun] :=
    (List.dropLast_concat_getLast _).symm
  have hsum := isSum_chain first (second :: rest)
  rw [hsplit] at hsum
  obtain ⟨left, hleft, hchain⟩ := hsum.exists_left (List.cons_ne_nil _ _)
  rw [hchain, harguments]
  refine ⟨⟨_, left, _, hsplit, hleft, rfl⟩, fun reading => ?_⟩
  have hstring : reading.IsString (reading.value 0 first) ∨
      reading.IsString (reading.value 1 second) := by
    obtain ⟨_, _, _, hsame, hstring⟩ := haccepts.string
    cases harguments.symm.trans hsame
    exact hstring.imp (reading.isString_value 0 first) (reading.isString_value 1 second)
  have hmeant := reading.text_evaluate_sum hstring (isSum_chain first (second :: rest))
  rw [hchain] at hmeant
  exact hmeant

/-- Reads arguments as their places; an addition without a string loses its operands. -/
def placeTexts : Reading (String × Bool) where
  value place e := (toString place, isString e)
  add a b := if a.2 || b.2 then (a.1 ++ b.1, true) else ("", false)
  text := Prod.fst
  IsString a := a.2 = true
  isString_value _ _ := isString_iff.mpr
  isString_add a b h := by rw [if_pos (by simpa using h)]
  text_add a b h := by rw [if_pos (by simpa using h)]

theorem joins_arguments_numberFirst :
    let method := Method.ofName (.ofName "System" "String") "Concat"
    let one : Expr := .ofForm (.literal (.int 1))
    let mark : Expr := .ofForm (.literal (.string "!"))
    let call : Expr := ⟨.call .hole [one, mark, one], [.loadToken]⟩
    let sum : Expr := ⟨.binary .add (.ofForm (.binary .add one mark)) one, [.loadToken]⟩
    recover? method call = some sum ∧ (placeTexts.evaluate 2 sum).1 = "012" := by
  intro method one mark call sum
  have haccepted : recover? method call = some sum := by rfl
  have htext := (((joins_arguments method call).2 sum haccepted).2 placeTexts).2
  have hplaces : placeTexts.textOf [one, mark, one] = "012" := by
    simp only [Reading.textOf, placeTexts, List.mapIdx_cons, List.mapIdx_nil]
    decide
  exact ⟨haccepted, htext.trans hplaces⟩

end Meaning

end Concatenation

end OperatorRecovery
