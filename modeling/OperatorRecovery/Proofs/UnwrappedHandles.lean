import OperatorRecovery.Proofs.InPlace

/-!
Unwrapping field and method handles, shape by shape. The nodes that are unwrapped are those that
the compiler made from a metadata token, alone or with the declaring type beside it. The rules
give up behind the match as well, and they find the reference inside the token by its index. Only
a call with one argument has its reference captured, so that index is always the right one.
-/

namespace OperatorRecovery

namespace Handle

/-- A field handle and what comes in its place. Beside the token the declaring type may stand,
and then the one argument of the token refers to a field, which is named on that type. -/
inductive UnwrapsField : Expr → Expr → Prop
  | alone {target token : Expr} {selection annotations : Annotations}
    (resolves : ResolvesTo fieldFromHandle annotations)
    (loaded : Annotations.hasLoadToken token.annotations = true) :
    UnwrapsField
      ⟨.call target [⟨.member token "FieldHandle" [], selection⟩], annotations⟩
      ⟨token.form, token.annotations ++
        Annotations.ofInstructions (Annotations.instructions annotations)⟩
  | beside {target tokenTarget reference : Expr} {declaringType : TypeSyntax} {field : Field}
    {tokenAnnotations typeAnnotations selection typeSelection annotations : Annotations}
    (resolves : ResolvesTo fieldFromHandle annotations)
    (loaded : Annotations.hasLoadToken tokenAnnotations = true)
    (known : reference.field? = some field) :
    UnwrapsField
      ⟨.call target
        [⟨.member ⟨.call tokenTarget [reference], tokenAnnotations⟩ "FieldHandle" [], selection⟩,
          ⟨.member ⟨.typeOf declaringType, typeAnnotations⟩ "TypeHandle" [], typeSelection⟩],
        annotations⟩
      ⟨.call tokenTarget
        [⟨.member ⟨.typeReference declaringType, []⟩ field.name [], reference.annotations⟩],
        tokenAnnotations ++ Annotations.ofInstructions (Annotations.instructions annotations)⟩

/-- A method handle and what comes in its place. With the declaring type beside the token, a
method that the one argument of the token refers to is named on that type, with the types of its
parameters; a token of any other kind stays as it is. -/
inductive UnwrapsMethod (spelling : Spelling) : Expr → Expr → Prop
  | alone {type : TypeSyntax} {target token : Expr}
    {selection callAnnotations annotations : Annotations}
    (converts : methodInfoTypes.any type.refersTo = true)
    (resolves : ResolvesTo methodFromHandle callAnnotations)
    (loaded : Annotations.hasLoadToken token.annotations = true) :
    UnwrapsMethod spelling
      ⟨.cast type ⟨.call target [⟨.member token "MethodHandle" [], selection⟩], callAnnotations⟩,
        annotations⟩
      ⟨token.form, token.annotations ++ annotations⟩
  | beside {type declaringType : TypeSyntax} {target tokenTarget reference : Expr}
    {method : Method} {tokenAnnotations typeAnnotations selection typeSelection callAnnotations
      annotations : Annotations}
    (converts : methodInfoTypes.any type.refersTo = true)
    (resolves : ResolvesTo methodFromHandle callAnnotations)
    (loaded : Annotations.hasLoadToken tokenAnnotations = true)
    (known : reference.method? = some method) :
    UnwrapsMethod spelling
      ⟨.cast type
        ⟨.call target
          [⟨.member ⟨.call tokenTarget [reference], tokenAnnotations⟩ "MethodHandle" [], selection⟩,
            ⟨.member ⟨.typeOf declaringType, typeAnnotations⟩ "TypeHandle" [], typeSelection⟩],
          callAnnotations⟩, annotations⟩
      ⟨.call tokenTarget
        [⟨.call
          ⟨.member ⟨.typeReference declaringType, []⟩ method.name [], reference.annotations⟩
          (method.parameters.map fun p => ⟨.typeReference (spelling p.type), []⟩), []⟩],
        tokenAnnotations ++ annotations⟩
  | besideUnknown {type declaringType : TypeSyntax} {target token : Expr}
    {typeAnnotations selection typeSelection callAnnotations annotations : Annotations}
    (converts : methodInfoTypes.any type.refersTo = true)
    (resolves : ResolvesTo methodFromHandle callAnnotations)
    (loaded : Annotations.hasLoadToken token.annotations = true)
    (unknown : ∀ tokenTarget reference tokenAnnotations,
      token = ⟨.call tokenTarget [reference], tokenAnnotations⟩ → reference.method? = none) :
    UnwrapsMethod spelling
      ⟨.cast type
        ⟨.call target
          [⟨.member token "MethodHandle" [], selection⟩,
            ⟨.member ⟨.typeOf declaringType, typeAnnotations⟩ "TypeHandle" [], typeSelection⟩],
          callAnnotations⟩, annotations⟩
      ⟨token.form, token.annotations ++ annotations⟩

theorem field?_eq_some_iff_unwrapsField {call after : Expr} :
    field? call = some after ↔ UnwrapsField call after := by
  rw [field?_eq_some_iff]
  constructor
  · rintro ⟨target, _, rest, annotations, token, replacement, rfl, hresolves,
      ⟨selection, rfl⟩, hloaded, hreplacement, rfl⟩
    cases hreplacement with
    | bare => exact .alone hresolves hloaded
    | qualified selects known =>
      obtain ⟨_, typeAnnotations, ⟨typeSelection, rfl⟩, rfl⟩ := selects
      exact .beside hresolves hloaded known
  · intro h
    cases h with
    | alone resolves loaded =>
      exact ⟨_, _, [], _, _, _, rfl, resolves, ⟨_, rfl⟩, loaded, .bare _, rfl⟩
    | beside resolves loaded known =>
      exact ⟨_, _, _, _, _, _, rfl, resolves, ⟨_, rfl⟩, loaded,
        .qualified ⟨_, _, ⟨_, rfl⟩, rfl⟩ known, rfl⟩

theorem method?_eq_some_iff_unwrapsMethod {spelling : Spelling} {cast after : Expr} :
    method? spelling cast = some after ↔ UnwrapsMethod spelling cast after := by
  rw [method?_eq_some_iff]
  constructor
  · rintro ⟨type, target, _, rest, callAnnotations, annotations, token, replacement, rfl,
      hconverts, hresolves, ⟨selection, rfl⟩, hloaded, hreplacement, rfl⟩
    cases hreplacement with
    | bare => exact .alone hconverts hresolves hloaded
    | qualified selects known =>
      obtain ⟨_, typeAnnotations, ⟨typeSelection, rfl⟩, rfl⟩ := selects
      exact .beside hconverts hresolves hloaded known
    | unqualified selects unknown =>
      obtain ⟨_, typeAnnotations, ⟨typeSelection, rfl⟩, rfl⟩ := selects
      exact .besideUnknown hconverts hresolves hloaded unknown
  · intro h
    cases h with
    | alone converts resolves loaded =>
      exact ⟨_, _, _, [], _, _, _, _, rfl, converts, resolves, ⟨_, rfl⟩, loaded, .bare _, rfl⟩
    | beside converts resolves loaded known =>
      exact ⟨_, _, _, _, _, _, _, _, rfl, converts, resolves, ⟨_, rfl⟩, loaded,
        .qualified ⟨_, _, ⟨_, rfl⟩, rfl⟩ known, rfl⟩
    | besideUnknown converts resolves loaded unknown =>
      exact ⟨_, _, _, _, _, _, _, _, rfl, converts, resolves, ⟨_, rfl⟩, loaded,
        .unqualified ⟨_, _, ⟨_, rfl⟩, rfl⟩ unknown, rfl⟩

end Handle

namespace Edit

open Handle

/-- A recovery that is known says when a rule accepts a node and what the node becomes. -/
theorem outcome_iff {recovery : Option Expr} {Unwraps : Expr → Prop}
    (h : ∀ after, recovery = some after ↔ Unwraps after) (node after : Expr) :
    (outcome recovery node = (true, after) ↔ Unwraps after) ∧
      (outcome recovery node = (false, after) ↔ after = node ∧ ∀ result, ¬ Unwraps result) := by
  simp only [← h]
  cases recovery <;> simp [eq_comm]

/-- A field handle is unwrapped if it has one of the two shapes, and every other node stays as it
is. -/
theorem unwrapField_iff (call after : Expr) :
    (field? call = some after ↔ UnwrapsField call after) ∧
      (unwrapField.perform call = (true, after) ↔ UnwrapsField call after) ∧
      (unwrapField.perform call = (false, after) ↔
        after = call ∧ ∀ result, ¬ UnwrapsField call result) := by
  rw [perform_unwrapField]
  exact ⟨field?_eq_some_iff_unwrapsField,
    outcome_iff (fun _ => field?_eq_some_iff_unwrapsField) call after⟩

/-- A method handle is unwrapped if it has one of the three shapes, and every other node stays as
it is. -/
theorem unwrapMethod_iff (spelling : Spelling) (cast after : Expr) :
    (method? spelling cast = some after ↔ UnwrapsMethod spelling cast after) ∧
      ((unwrapMethod spelling).perform cast = (true, after) ↔
        UnwrapsMethod spelling cast after) ∧
      ((unwrapMethod spelling).perform cast = (false, after) ↔
        after = cast ∧ ∀ result, ¬ UnwrapsMethod spelling cast result) := by
  rw [perform_unwrapMethod]
  exact ⟨method?_eq_some_iff_unwrapsMethod,
    outcome_iff (fun _ => method?_eq_some_iff_unwrapsMethod) cast after⟩

end Edit

end OperatorRecovery
