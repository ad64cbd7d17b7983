import OperatorRecovery.Proofs.Nodes
import OperatorRecovery.Proofs.Rewrites

/-!
The order of the rules does not matter. Every rewrite of a call looks for some endings of the
method's full name: the whole of it, or the name of an operator behind a dot. Of two endings of
one name the shorter is an ending of the longer, and no ending that one rewrite looks for is an
ending of what another looks for. So at most one rewrite accepts a call, whatever its method
and the type that declares it are named.
-/

namespace OperatorRecovery

namespace Pass

/-- The rewrites of a call. Type and field handles share a rule. -/
inductive CallRewrite
  | concatenation
  | typeHandle
  | fieldHandle
  | instantiation
  | interpolation
  | binary
  | unary
  | conversion
  | truthTest
  deriving DecidableEq

namespace CallRewrite

/-- All of them, in the order of the pass. -/
def all : List CallRewrite :=
  [.concatenation, .typeHandle, .fieldHandle, .instantiation, .interpolation, .binary, .unary,
   .conversion, .truthTest]

theorem mem_all (w : CallRewrite) : w ∈ all := by cases w <;> decide

def rule : CallRewrite → Rule
  | .concatenation => .stringConcat
  | .typeHandle | .fieldHandle => .handleUnwrapping
  | .instantiation => .genericInstantiation
  | .interpolation => .stringInterpolation
  | .binary => .binaryOperators
  | .unary => .unaryOperators
  | .conversion => .explicitConversion
  | .truthTest => .operatorTrue

/-- What a rewrite makes of a call that it accepts. -/
def attempt? (settings : Settings) (spelling : Spelling) (method : Method) (call : Expr) :
    CallRewrite → Option Expr
  | .concatenation => Concatenation.recover? method call
  | .typeHandle => Handle.type? call
  | .fieldHandle => Handle.field? call
  | .instantiation => Instantiation.recover? spelling method call
  | .interpolation => Interpolation.recover? method call
  | .binary => OperatorCall.binary? settings method call
  | .unary => OperatorCall.unary? method call
  | .conversion => OperatorCall.explicit? spelling method call
  | .truthTest => OperatorCall.truth? method call

/-- Whether calls in a role are offered to a rewrite. -/
def isOffered (settings : Settings) (role : Role) : CallRewrite → Bool
  | .interpolation => settings.interpolatesStrings
  | .truthTest => settings.isEnabled .operatorTrue && role == .condition
  | w => settings.isEnabled w.rule

/-- The endings of full names that a rewrite looks for. -/
def endings : CallRewrite → List String
  | .concatenation => [Concatenation.methodName]
  | .typeHandle => [Handle.typeFromHandle]
  | .fieldHandle => [Handle.fieldFromHandle]
  | .instantiation => [Instantiation.methodName]
  | .interpolation => [Interpolation.methodName]
  | .binary => BinaryOperator.all.map ("." ++ ·.metadataName)
  | .unary => UnaryOperator.all.map ("." ++ ·.metadataName)
  | .conversion => ["." ++ OperatorCall.explicitName]
  | .truthTest => ["." ++ OperatorCall.trueName]

/-- No ending is an ending of what another rewrite looks for. -/
theorem eq_of_endings : ∀ w ∈ all, ∀ w' ∈ all, ∀ x ∈ w.endings, ∀ y ∈ w'.endings,
    x.toList <:+ y.toList → w = w' := by decide +kernel

end CallRewrite

open CallRewrite

section Calls

variable {settings : Settings} {spelling : Spelling} {role : Role} {target result : Expr}
  {arguments : List Expr} {annotations : Annotations} {method : Method}

theorem suffix_fullName (method : Method) :
    ("." ++ method.name).toList <:+ method.fullName.toList := by
  have hfull : method.fullName.toList =
      method.declaringType.fullName.toList ++ ("." ++ method.name).toList := by
    rw [Method.fullName, String.append_assoc, String.toList_append]
  rw [hfull]
  exact List.suffix_append _ _

theorem exists_ending {w : CallRewrite} (resolved : Annotations.method? annotations = some method)
    (h : w.attempt? settings spelling method ⟨.call target arguments, annotations⟩ = some result) :
    ∃ ending ∈ w.endings, ending.toList <:+ method.fullName.toList := by
  have hnamed {fullName : String} (named : method.fullName = fullName) :
      fullName.toList <:+ method.fullName.toList := by
    subst named
    exact List.suffix_rfl
  -- A handle is recognised by the method that the call resolves to, which is the given one.
  have hresolves {fullName : String} (resolves : Handle.ResolvesTo fullName annotations) :
      fullName.toList <:+ method.fullName.toList := by
    obtain ⟨method', resolved', named⟩ := resolves
    cases resolved.symm.trans resolved'
    exact hnamed named
  cases w with
  | concatenation =>
    obtain ⟨_, _, _, _, haccepts, _⟩ := Concatenation.recover?_eq_some_iff.mp h
    simp only [Concatenation.accepts, Bool.and_eq_true, beq_iff_eq] at haccepts
    exact ⟨_, List.mem_singleton.mpr rfl, hnamed haccepts.1.1⟩
  | typeHandle =>
    obtain ⟨_, _, _, _, heq, resolves, _⟩ := Handle.type?_eq_some_iff.mp h
    cases heq
    exact ⟨_, List.mem_singleton.mpr rfl, hresolves resolves⟩
  | fieldHandle =>
    obtain ⟨_, _, _, _, _, _, heq, resolves, _⟩ := Handle.field?_eq_some_iff.mp h
    cases heq
    exact ⟨_, List.mem_singleton.mpr rfl, hresolves resolves⟩
  | instantiation =>
    obtain ⟨_, _, named, _⟩ := Instantiation.recover?_eq_some_iff.mp h
    exact ⟨_, List.mem_singleton.mpr rfl, hnamed named⟩
  | interpolation =>
    obtain ⟨_, _, _, _, _, _, named, _⟩ := Interpolation.recover?_eq_some_iff.mp h
    exact ⟨_, List.mem_singleton.mpr rfl, hnamed named⟩
  | binary =>
    obtain ⟨_, _, op, _, named, _⟩ := OperatorCall.binary?_eq_some_iff.mp h
    refine ⟨_, List.mem_map_of_mem op.mem_all, ?_⟩
    rw [BinaryOperator.metadataName_of_ofMetadataName? named]
    exact suffix_fullName method
  | unary =>
    obtain ⟨_, op, _, named, _⟩ := OperatorCall.unary?_eq_some_iff.mp h
    refine ⟨_, List.mem_map_of_mem op.mem_all, ?_⟩
    rw [UnaryOperator.metadataName_of_ofMetadataName? named]
    exact suffix_fullName method
  | conversion =>
    obtain ⟨_, _, named, _⟩ := OperatorCall.explicit?_eq_some_iff.mp h
    refine ⟨_, List.mem_singleton.mpr rfl, ?_⟩
    rw [← named]
    exact suffix_fullName method
  | truthTest =>
    obtain ⟨_, _, named, _⟩ := OperatorCall.truth?_eq_some_iff.mp h
    refine ⟨_, List.mem_singleton.mpr rfl, ?_⟩
    rw [← named]
    exact suffix_fullName method

/-- At most one rewrite accepts a call. -/
theorem attempt?_unique {w w' : CallRewrite} {result' : Expr}
    (resolved : Annotations.method? annotations = some method)
    (h : w.attempt? settings spelling method ⟨.call target arguments, annotations⟩ = some result)
    (h' : w'.attempt? settings spelling method ⟨.call target arguments, annotations⟩ =
      some result') : w = w' := by
  obtain ⟨x, hx, hsuffix⟩ := exists_ending resolved h
  obtain ⟨y, hy, hsuffix'⟩ := exists_ending resolved h'
  rcases List.suffix_or_suffix_of_suffix hsuffix hsuffix' with hxy | hyx
  · exact eq_of_endings w w.mem_all w' w'.mem_all x hx y hy hxy
  · exact (eq_of_endings w' w'.mem_all w w.mem_all y hy x hx hyx).symm

/-- A rule rewrites a call where one of its rewrites is offered the call and accepts it. -/
theorem recoverBy?_eq_some_iff {rule : Rule}
    (resolved : Annotations.method? annotations = some method) :
    recoverBy? settings spelling role method ⟨.call target arguments, annotations⟩ rule =
        some result ↔
      ∃ w : CallRewrite, w.rule = rule ∧ w.isOffered settings role = true ∧
        w.attempt? settings spelling method ⟨.call target arguments, annotations⟩ =
          some result := by
  constructor
  · intro h
    cases rule <;> simp only [recoverBy?, Option.ite_none_right_eq_some] at h
    case stringConcat => exact ⟨.concatenation, rfl, h⟩
    case handleUnwrapping =>
      rcases Option.or_eq_some_iff.mp h.2 with htype | ⟨_, hfield⟩
      · exact ⟨.typeHandle, rfl, h.1, htype⟩
      · exact ⟨.fieldHandle, rfl, h.1, hfield⟩
    case genericInstantiation => exact ⟨.instantiation, rfl, h⟩
    case stringInterpolation => exact ⟨.interpolation, rfl, h⟩
    case binaryOperators => exact ⟨.binary, rfl, h⟩
    case unaryOperators => exact ⟨.unary, rfl, h⟩
    case explicitConversion => exact ⟨.conversion, rfl, h⟩
    case operatorTrue => exact ⟨.truthTest, rfl, h⟩
  · intro h
    obtain ⟨w, rfl, offered, haccepts⟩ := h
    cases w with
    | typeHandle =>
      refine (if_pos offered).trans (Option.or_eq_some_iff.mpr ?_)
      exact Or.inl haccepts
    | fieldHandle =>
      refine (if_pos offered).trans (Option.or_eq_some_iff.mpr ?_)
      refine Or.inr ⟨?_, haccepts⟩
      -- The type rule comes first, so it must not accept the call as well.
      rw [Option.eq_none_iff_forall_ne_some]
      intro result' htype
      have htype' : CallRewrite.typeHandle.attempt? settings spelling method
          ⟨.call target arguments, annotations⟩ = some result' := htype
      cases attempt?_unique resolved htype' haccepts
    | _ => exact (if_pos offered).trans haccepts

theorem recoverBy?_unique {rule rule' : Rule} {result' : Expr}
    (resolved : Annotations.method? annotations = some method)
    (h : recoverBy? settings spelling role method ⟨.call target arguments, annotations⟩ rule =
      some result)
    (h' : recoverBy? settings spelling role method ⟨.call target arguments, annotations⟩ rule' =
      some result') : rule = rule' := by
  obtain ⟨w, rfl, _, haccepts⟩ := (recoverBy?_eq_some_iff resolved).mp h
  obtain ⟨w', rfl, _, haccepts'⟩ := (recoverBy?_eq_some_iff resolved).mp h'
  rw [attempt?_unique resolved haccepts haccepts']

/-- Where one element at most gives a result, every list that has all of them finds it. -/
theorem findSome?_eq_some_iff_of_unique {f : α → Option β} {order : List α} {b : β}
    (complete : ∀ a, a ∈ order)
    (unique : ∀ {a a' b b'}, f a = some b → f a' = some b' → a = a') :
    order.findSome? f = some b ↔ ∃ a, f a = some b := by
  constructor
  · intro h
    obtain ⟨a, _, ha⟩ := List.exists_of_findSome?_eq_some h
    exact ⟨a, ha⟩
  · intro h
    obtain ⟨a, ha⟩ := h
    cases hfound : order.findSome? f with
    | none =>
      rw [List.findSome?_eq_none_iff.mp hfound a (complete a)] at ha
      cases ha
    | some b' =>
      obtain ⟨a', _, ha'⟩ := List.exists_of_findSome?_eq_some hfound
      cases unique ha ha'
      exact ha'.symm.trans ha

theorem dispatch?_eq_some_iff (resolved : Annotations.method? annotations = some method) :
    dispatch? settings spelling role ⟨.call target arguments, annotations⟩ = some result ↔
      ∃ rule, recoverBy? settings spelling role method ⟨.call target arguments, annotations⟩ rule =
        some result := by
  have hmethod : Expr.method? ⟨.call target arguments, annotations⟩ = some method := resolved
  rw [dispatch?, hmethod, Option.bind_some]
  exact findSome?_eq_some_iff_of_unique Rule.mem_all (recoverBy?_unique resolved)

/-- Without a rule a call is treated as before, unless it was that rule that rewrote it. -/
theorem recoverBy?_disable (rule rule' : Rule) (call : Expr) :
    recoverBy? (settings.disable rule) spelling role method call rule' =
      if rule' = rule then none else recoverBy? settings spelling role method call rule' := by
  by_cases hrule : rule' = rule
  · subst hrule
    rw [if_pos rfl]
    cases rule' <;>
      simp [recoverBy?, Settings.interpolatesStrings, Settings.isEnabled_disable]
  · rw [if_neg hrule]
    have henabled := settings.isEnabled_disable_of_ne hrule
    cases rule' <;> simp only [recoverBy?, Settings.interpolatesStrings, henabled] <;> rfl

/-- Without the rule that rewrote it a call stays as it is, and no other call is affected. -/
theorem dispatch?_disable (resolved : Annotations.method? annotations = some method) (rule : Rule) :
    dispatch? (settings.disable rule) spelling role ⟨.call target arguments, annotations⟩ =
      if (recoverBy? settings spelling role method
        ⟨.call target arguments, annotations⟩ rule).isSome then none
      else dispatch? settings spelling role ⟨.call target arguments, annotations⟩ := by
  by_cases hsome :
    (recoverBy? settings spelling role method ⟨.call target arguments, annotations⟩ rule).isSome
  · rw [if_pos hsome, Option.eq_none_iff_forall_ne_some]
    intro result h
    obtain ⟨rule', hrule'⟩ := (dispatch?_eq_some_iff resolved).mp h
    rw [recoverBy?_disable, Option.ite_none_left_eq_some] at hrule'
    obtain ⟨_, hrule⟩ := Option.isSome_iff_exists.mp hsome
    exact hrule'.1 (recoverBy?_unique resolved hrule'.2 hrule)
  · rw [if_neg hsome]
    ext result
    rw [dispatch?_eq_some_iff resolved, dispatch?_eq_some_iff resolved]
    constructor
    · intro h
      obtain ⟨rule', hrule'⟩ := h
      rw [recoverBy?_disable, Option.ite_none_left_eq_some] at hrule'
      exact ⟨rule', hrule'.2⟩
    · intro h
      obtain ⟨rule', hrule'⟩ := h
      refine ⟨rule', ?_⟩
      rw [recoverBy?_disable, Option.ite_none_left_eq_some]
      refine ⟨?_, hrule'⟩
      rintro rfl
      exact hsome (Option.isSome_iff_exists.mpr ⟨result, hrule'⟩)

end Calls

/-- What becomes of a call if its rewrites are tried in the given order. -/
def dispatchIn? (order : List CallRewrite) (settings : Settings) (spelling : Spelling)
    (role : Role) (call : Expr) : Option Expr :=
  call.method?.bind fun method => order.findSome? fun w =>
    if w.isOffered settings role then w.attempt? settings spelling method call else none

theorem dispatchIn?_eq_dispatch? {settings : Settings} {spelling : Spelling} {role : Role}
    {target : Expr} {arguments : List Expr} {annotations : Annotations} {method : Method}
    (resolved : Annotations.method? annotations = some method) {order : List CallRewrite}
    (complete : ∀ w, w ∈ order) :
    dispatchIn? order settings spelling role ⟨.call target arguments, annotations⟩ =
      dispatch? settings spelling role ⟨.call target arguments, annotations⟩ := by
  have hmethod : Expr.method? ⟨.call target arguments, annotations⟩ = some method := resolved
  ext result
  rw [dispatch?_eq_some_iff resolved, dispatchIn?, hmethod, Option.bind_some,
    findSome?_eq_some_iff_of_unique complete]
  · simp only [recoverBy?_eq_some_iff resolved, Option.ite_none_right_eq_some]
    exact ⟨fun ⟨w, h⟩ => ⟨w.rule, w, rfl, h⟩, fun ⟨_, w, _, h⟩ => ⟨w, h⟩⟩
  · intro w w' result result' h h'
    exact attempt?_unique resolved (Option.ite_none_right_eq_some.mp h).2
      (Option.ite_none_right_eq_some.mp h').2

/-- At most one rewrite accepts a call with a resolved method. So it does not matter in which
order they are tried, and to disable a rule only keeps the calls that it would have rewritten. -/
theorem at_most_one_rewrite (settings : Settings) (spelling : Spelling) (role : Role)
    (call target : Expr) (arguments : List Expr) (method : Method)
    (form : call.form = .call target arguments) (resolved : call.method? = some method) :
    (∀ w w' : CallRewrite, (w.attempt? settings spelling method call).isSome →
      (w'.attempt? settings spelling method call).isSome → w = w') ∧
    (∀ order : List CallRewrite, (∀ w, w ∈ order) →
      dispatchIn? order settings spelling role call = dispatch? settings spelling role call) ∧
    ∀ rule, dispatch? (settings.disable rule) spelling role call =
      if (recoverBy? settings spelling role method call rule).isSome then none
      else dispatch? settings spelling role call := by
  obtain ⟨_, annotations⟩ := call
  cases form
  refine ⟨?_, fun _ complete => dispatchIn?_eq_dispatch? resolved complete,
    dispatch?_disable resolved⟩
  intro w w' h h'
  obtain ⟨result, h⟩ := Option.isSome_iff_exists.mp h
  obtain ⟨result', h'⟩ := Option.isSome_iff_exists.mp h'
  exact attempt?_unique resolved h h'

/-- `System.String.Concat(a, "")`, by a method `String.Concat` of a type `System`. -/
def systemConcat : Method := .ofName (.ofName "" "System") "String.Concat"

def concatenatedName : Expr :=
  .staticCall systemConcat [.ofForm (.identifier "a"), .ofForm (.literal (.string ""))]

theorem at_most_one_rewrite_concatenatedName :
    concatenatedName.method? = some systemConcat ∧
      (CallRewrite.concatenation.attempt? .initial (SpellingStyle.spell ⟨true, false⟩) systemConcat
        concatenatedName).isSome ∧
      dispatchIn? all.reverse .initial (SpellingStyle.spell ⟨true, false⟩) .expression
          concatenatedName =
        dispatch? .initial (SpellingStyle.spell ⟨true, false⟩) .expression concatenatedName ∧
      dispatch? (Settings.initial.disable .stringConcat) (SpellingStyle.spell ⟨true, false⟩)
        .expression concatenatedName = none :=
  have h := at_most_one_rewrite .initial (SpellingStyle.spell ⟨true, false⟩) .expression
    concatenatedName _ _ systemConcat rfl rfl
  ⟨rfl, rfl, h.2.1 all.reverse fun w => List.mem_reverse.mpr w.mem_all, h.2.2 .stringConcat⟩

end Pass

end OperatorRecovery
