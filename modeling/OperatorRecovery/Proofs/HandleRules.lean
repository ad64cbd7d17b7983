import OperatorRecovery.Handle

/-!
What the handle rules accept. Each of the three patterns matches one shape of
call or cast, with the load token at a fixed place and at most one more argument
that says which type declares what the token refers to. From the shape follow
the captures of a match, and from these the result of the rule.
-/

namespace OperatorRecovery

theorem Match.descend_eq_some_iff {m m' : Match} {e : Expr} {i : Nat}
    {visit : Expr → Match → Option Match} :
    m.descend e i visit = some m' ↔
      ∃ part inner, e.child? i = some part ∧
        visit part ⟨m.path ++ [i], m.captures⟩ = some inner ∧
        m' = ⟨m.path, inner.captures⟩ := by
  simp only [descend, Option.bind_eq_bind, Option.bind_eq_some_iff, Option.pure_def,
    Option.some.injEq]
  constructor
  · intro h
    obtain ⟨part, hpart, inner, hinner, rfl⟩ := h
    exact ⟨part, inner, hpart, hinner, rfl⟩
  · intro h
    obtain ⟨part, inner, hpart, hinner, rfl⟩ := h
    exact ⟨part, hpart, inner, hinner, rfl⟩

namespace Handle

open Pattern

/-- `e` is `target.name` without type arguments. -/
def Selects (name : String) (target e : Expr) : Prop :=
  ∃ annotations, e = ⟨.member target name [], annotations⟩

/-- `e` is `typeof(type).TypeHandle`. -/
def SelectsType (type : TypeSyntax) (e : Expr) : Prop :=
  ∃ target annotations, Selects "TypeHandle" target e ∧ target = ⟨.typeOf type, annotations⟩

theorem SelectsType.unique {type type' : TypeSyntax} {e : Expr} (h : SelectsType type e)
    (h' : SelectsType type' e) : type = type' := by
  obtain ⟨_, _, ⟨_, rfl⟩, rfl⟩ := h
  obtain ⟨_, _, ⟨_, h'⟩, rfl⟩ := h'
  cases h'
  rfl

/-- Where a match of a token records it and the one reference inside it. -/
def tokenCaptures (path : Expr.Path) (token : Expr) : List Capture :=
  match token.form with
  | .call _ [_] => [⟨"reference", path ++ [1]⟩, ⟨"token", path⟩]
  | _ => [⟨"token", path⟩]

theorem run_member_iff {name : String} {target : Pattern} {e : Expr} {m m' : Match} :
    run (.member name target) e m = some m' ↔
      ∃ x inner, Selects name x e ∧ run target x ⟨m.path ++ [0], m.captures⟩ = some inner ∧
        m' = ⟨m.path, inner.captures⟩ := by
  constructor
  · intro h
    obtain ⟨form, annotations⟩ := e
    simp only [run] at h
    split at h
    · rename_i _ x found
      split at h
      · rename_i hname
        obtain ⟨part, inner, hpart, hrun, hm⟩ := Match.descend_eq_some_iff.mp h
        cases hpart
        exact ⟨x, inner, ⟨annotations, by rw [hname]⟩, hrun, hm⟩
      · cases h
    · cases h
  · intro h
    obtain ⟨x, inner, ⟨annotations, rfl⟩, hrun, rfl⟩ := h
    simp only [run, if_true]
    exact Match.descend_eq_some_iff.mpr ⟨x, inner, rfl, hrun, rfl⟩

theorem run_tokenPattern (e : Expr) (m : Match) :
    run tokenPattern e m =
      if Annotations.hasLoadToken e.annotations then
        some ⟨m.path, m.captures ++ tokenCaptures m.path e⟩
      else none := by
  obtain ⟨form, annotations⟩ := e
  simp only [tokenPattern, run, runChoice]
  cases hload : Annotations.hasLoadToken annotations with
  | false => cases form <;> simp; split <;> rfl
  | true =>
    simp only [if_true, Option.or_none]
    split
    · simp [Match.descend, Expr.child?, Expr.parts, Form.parts, Form.slots, Match.record,
        tokenCaptures]
    · simp [Match.record, tokenCaptures]

theorem run_declaringTypePattern_iff {e : Expr} {m m' : Match} :
    run declaringTypePattern e m = some m' ↔
      ∃ type, SelectsType type e ∧
        m' = ⟨m.path, m.captures ++ [⟨"declaringType", m.path ++ [0]⟩]⟩ := by
  rw [declaringTypePattern, run_member_iff]
  constructor
  · intro h
    obtain ⟨⟨form, annotations⟩, inner, hselects, hrun, rfl⟩ := h
    simp only [run] at hrun
    split at hrun
    · rename_i _ type
      cases hrun
      exact ⟨type, ⟨_, annotations, hselects, rfl⟩, rfl⟩
    · cases hrun
  · intro h
    obtain ⟨type, ⟨_, annotations, hselects, rfl⟩, rfl⟩ := h
    exact ⟨_, _, hselects, rfl, rfl⟩

theorem runItems_nil (e : Expr) (i : Nat) (m : Match) :
    runItems [] e i m = if e.parts.length ≤ i then some m else none := by
  rw [runItems]

/-- The arguments of a call that turns a handle back: a token, and possibly the
type that declares what it refers to. -/
def handleItems (name : String) : List Item :=
  [.required (.member name tokenPattern), .optional declaringTypePattern]

/-- What a match records for the type behind a token. -/
def typeCapture (path : Expr.Path) : Capture := ⟨"declaringType", path ++ [2, 0]⟩

/-- What stands behind the token, and what a match of it records. -/
inductive Declaring (path : Expr.Path) : List Expr → List Capture → Prop
  | absent : Declaring path [] []
  | present {type : TypeSyntax} {e : Expr} (selects : SelectsType type e) :
    Declaring path [e] [typeCapture path]

theorem runItems_declaring_iff {path : Expr.Path} {target first : Expr} {rest : List Expr}
    {annotations : Annotations} {captures : List Capture} {m : Match} :
    runItems [.optional declaringTypePattern] ⟨.call target (first :: rest), annotations⟩ 2
        ⟨path, captures⟩ = some m ↔
      ∃ more, Declaring path rest more ∧ m = ⟨path, captures ++ more⟩ := by
  have hdescend : ∀ {inner : Match},
      Match.descend ⟨path, captures⟩ ⟨.call target (first :: rest), annotations⟩ 2
        (run declaringTypePattern) = some inner ↔
      ∃ e more type, rest = e :: more ∧ SelectsType type e ∧
        inner = ⟨path, captures ++ [⟨"declaringType", path ++ [2, 0]⟩]⟩ := by
    intro inner
    rw [Match.descend_eq_some_iff, Expr.child?, Expr.parts_call]
    cases rest with
    | nil => simp
    | cons e more =>
      constructor
      · intro h
        obtain ⟨part, _, hpart, hrun, rfl⟩ := h
        cases hpart
        obtain ⟨type, hselects, rfl⟩ := run_declaringTypePattern_iff.mp hrun
        exact ⟨e, more, type, rfl, hselects, by rw [List.append_assoc]; rfl⟩
      · intro h
        obtain ⟨_, _, type, hcons, hselects, rfl⟩ := h
        cases hcons
        exact ⟨e, _, rfl, run_declaringTypePattern_iff.mpr ⟨type, hselects, rfl⟩,
          by rw [List.append_assoc]; rfl⟩
  constructor
  · intro h
    simp only [runItems, Option.or_eq_some_iff, Option.bind_eq_some_iff, Expr.parts_call] at h
    rcases h with ⟨inner, hinner, h⟩ | ⟨_, h⟩
    · obtain ⟨e, more, type, rfl, hselects, rfl⟩ := hdescend.mp hinner
      cases more with
      | nil =>
        cases h
        exact ⟨_, .present hselects, rfl⟩
      | cons e' more =>
        rw [if_neg (by simp only [List.length_cons]; omega)] at h
        cases h
    · cases rest with
      | nil =>
        cases h
        exact ⟨[], .absent, by rw [List.append_nil]⟩
      | cons e more => simp at h
  · intro h
    obtain ⟨more, hdeclaring, rfl⟩ := h
    cases hdeclaring with
    | absent =>
      have hnone : Match.descend ⟨path, captures⟩ ⟨.call target [first], annotations⟩ 2
          (run declaringTypePattern) = none := by
        simp [Match.descend, Expr.child?, Expr.parts_call]
      simp [runItems, hnone, Expr.parts_call]
    | present hselects =>
      have hsome := hdescend.mpr ⟨_, [], _, rfl, hselects, rfl⟩
      simp [runItems, hsome, Expr.parts_call, typeCapture]

/-- A match of the arguments of a call that turns a handle back. -/
theorem runItems_handleItems_iff {name : String} {path : Expr.Path} {target : Expr}
    {arguments : List Expr} {annotations : Annotations} {m : Match} :
    runItems (handleItems name) ⟨.call target arguments, annotations⟩ 1 ⟨path, []⟩ = some m ↔
      ∃ first rest token more, arguments = first :: rest ∧ Selects name token first ∧
        Annotations.hasLoadToken token.annotations ∧ Declaring path rest more ∧
        m = ⟨path, tokenCaptures (path ++ [1, 0]) token ++ more⟩ := by
  rw [handleItems, runItems]
  simp only [Option.bind_eq_some_iff, Match.descend_eq_some_iff, Expr.child?, Expr.parts_call,
    run_member_iff, run_tokenPattern]
  constructor
  · intro h
    obtain ⟨_, ⟨first, _, hfirst, ⟨token, _, hselects, hrun, rfl⟩, rfl⟩, hitems⟩ := h
    split at hrun
    · rename_i hload
      cases hrun
      cases arguments with
      | nil => cases hfirst
      | cons first' rest =>
        cases hfirst
        obtain ⟨more, hdeclaring, rfl⟩ := runItems_declaring_iff.mp hitems
        exact ⟨first, rest, token, more, rfl, hselects, hload, hdeclaring, by simp⟩
    · cases hrun
  · intro h
    obtain ⟨first, rest, token, more, rfl, hselects, hload, hdeclaring, rfl⟩ := h
    refine ⟨_, ⟨first, _, rfl, ⟨token, _, hselects, by rw [if_pos hload], rfl⟩, rfl⟩, ?_⟩
    exact runItems_declaring_iff.mpr ⟨more, hdeclaring, by simp⟩

/-- The annotations resolve to the method of that qualified name. -/
def ResolvesTo (fullName : String) (annotations : Annotations) : Prop :=
  ∃ method, Annotations.method? annotations = some method ∧ method.fullName = fullName

theorem ResolvesTo.unique {fullName fullName' : String} {annotations : Annotations}
    (h : ResolvesTo fullName annotations) (h' : ResolvesTo fullName' annotations) :
    fullName = fullName' := by
  obtain ⟨method, hmethod, rfl⟩ := h
  obtain ⟨method', hmethod', rfl⟩ := h'
  rw [hmethod] at hmethod'
  cases hmethod'
  rfl

theorem run_callOf_iff {fullName : String} {items : List Item} {e : Expr} {m m' : Match} :
    run (.callOf fullName items) e m = some m' ↔
      ∃ target arguments annotations, e = ⟨.call target arguments, annotations⟩ ∧
        ResolvesTo fullName annotations ∧
        runItems items ⟨.call target arguments, annotations⟩ 1 m = some m' := by
  constructor
  · intro h
    obtain ⟨form, annotations⟩ := e
    simp only [run] at h
    split at h
    · rename_i _ target arguments method hmethod
      split at h
      · rename_i hname
        exact ⟨target, arguments, annotations, rfl, ⟨method, hmethod, hname⟩, h⟩
      · cases h
    · cases h
  · intro h
    obtain ⟨target, arguments, annotations, rfl, ⟨method, hmethod, hname⟩, hitems⟩ := h
    have hmethod' : Expr.method? ⟨.call target arguments, annotations⟩ = some method := hmethod
    simp only [run, hmethod', hname, if_true]
    exact hitems

/-- What a type handle is taken from. -/
def IsTypeOperand (e : Expr) : Prop :=
  (∃ type, e.form = .typeOf type) ∨ ∃ operand, e.form = .refType operand

theorem run_typeOperand_iff {e : Expr} {m m' : Match} :
    run (capture "type" (choice [typeOf, refType any])) e m = some m' ↔
      IsTypeOperand e ∧ m' = ⟨m.path, m.captures ++ [⟨"type", m.path⟩]⟩ := by
  obtain ⟨form, annotations⟩ := e
  cases form with
  | typeOf type => simp [run, runChoice, IsTypeOperand, Match.record, eq_comm]
  | refType operand =>
    simp [run, runChoice, IsTypeOperand, Match.record, Match.descend, Expr.child?, Expr.parts,
      Form.parts, Form.slots, eq_comm]
  | _ => simp [run, runChoice, IsTypeOperand]

theorem runItems_single_iff {p : Pattern} {target : Expr} {arguments : List Expr}
    {annotations : Annotations} {m m' : Match} :
    runItems [.required p] ⟨.call target arguments, annotations⟩ 1 m = some m' ↔
      ∃ argument inner, arguments = [argument] ∧
        run p argument ⟨m.path ++ [1], m.captures⟩ = some inner ∧
        m' = ⟨m.path, inner.captures⟩ := by
  rw [runItems]
  simp only [Option.bind_eq_some_iff, Match.descend_eq_some_iff, Expr.child?, Expr.parts_call,
    runItems_nil]
  constructor
  · intro h
    obtain ⟨_, ⟨argument, inner, hargument, hrun, rfl⟩, hitems⟩ := h
    split at hitems
    · rename_i hlength
      cases hitems
      cases arguments with
      | nil => cases hargument
      | cons first rest =>
        cases hargument
        cases rest with
        | nil => exact ⟨argument, inner, rfl, hrun, rfl⟩
        | cons second rest => simp at hlength
    · cases hitems
  · intro h
    obtain ⟨argument, inner, rfl, hrun, rfl⟩ := h
    exact ⟨_, ⟨argument, inner, rfl, hrun, rfl⟩, by simp⟩

/-- Type handles unwrap to what they are taken from, and nothing else does. -/
theorem type?_eq_some_iff {call result : Expr} :
    type? call = some result ↔
      ∃ target argument annotations operand, call = ⟨.call target [argument], annotations⟩ ∧
        ResolvesTo typeFromHandle annotations ∧ Selects "TypeHandle" operand argument ∧
        IsTypeOperand operand ∧ result = operand.inheritInstructions annotations := by
  simp only [type?, match?, typePattern, Option.bind_eq_bind, Option.bind_eq_some_iff,
    Option.pure_def, Option.some.injEq, run_callOf_iff, runItems_single_iff, run_member_iff,
    run_typeOperand_iff]
  constructor
  · intro h
    obtain ⟨_, ⟨target, _, annotations, rfl, hresolves, argument, _, rfl, ⟨operand, _, hselects,
      ⟨hoperand, rfl⟩, rfl⟩, rfl⟩, found, hfound, rfl⟩ := h
    obtain ⟨memberAnnotations, rfl⟩ := hselects
    cases hfound
    exact ⟨target, _, annotations, operand, rfl, hresolves, ⟨_, rfl⟩, hoperand, rfl⟩
  · intro h
    obtain ⟨target, argument, annotations, operand, rfl, hresolves, ⟨memberAnnotations, rfl⟩,
      hoperand, rfl⟩ := h
    exact ⟨_, ⟨target, _, annotations, rfl, hresolves, _, _, rfl, ⟨operand, _, ⟨_, rfl⟩,
      ⟨hoperand, rfl⟩, rfl⟩, rfl⟩, operand, rfl, rfl⟩

/-- The one reference inside a token. -/
def reference? (token : Expr) : Option Expr :=
  match token.form with
  | .call _ [reference] => some reference
  | _ => none

theorem reference?_eq_some {token reference : Expr} (h : reference? token = some reference) :
    ∃ target annotations, token = ⟨.call target [reference], annotations⟩ := by
  obtain ⟨form, annotations⟩ := token
  rw [reference?] at h
  split at h
  · rename_i target found hform
    cases h
    cases hform
    exact ⟨target, annotations, rfl⟩
  · cases h

/-- The match of a call that turns a handle back, where `path` leads to the call. -/
def handleMatch (path : Expr.Path) (token : Expr) (more : List Capture) : Match :=
  ⟨[], tokenCaptures (path ++ [1, 0]) token ++ more⟩

theorem capture?_declaringType_absent (path : Expr.Path) (token : Expr) :
    (handleMatch path token []).capture? "declaringType" = none := by
  rw [handleMatch, tokenCaptures]
  split <;> simp [Match.capture?]

theorem capture?_token (path : Expr.Path) (token : Expr) (more : List Capture) :
    (handleMatch path token more).capture? "token" = some (path ++ [1, 0]) := by
  rw [handleMatch, tokenCaptures]
  split <;> simp [Match.capture?]

section Captured

variable {root target token first : Expr} {rest : List Expr} {annotations : Annotations}
  {path : Expr.Path} {name : String} {more : List Capture}
  (hroot : root.descendant? path = some ⟨.call target (first :: rest), annotations⟩)
  (hselects : Selects name token first)
include hroot hselects

theorem descendant?_token : root.descendant? (path ++ [1, 0]) = some token := by
  obtain ⟨memberAnnotations, rfl⟩ := hselects
  rw [Expr.descendant?_append, hroot]
  rfl

theorem captured?_token : captured? (handleMatch path token more) root "token" = some token := by
  rw [captured?, capture?_token]
  exact descendant?_token hroot hselects

theorem captured?_reference (hdeclaring : Declaring path rest more) :
    captured? (handleMatch path token more) root "reference" =
      reference? token := by
  have hcapture : (handleMatch path token more).capture? "reference" =
      match token.form with
      | .call _ [_] => some ((path ++ [1, 0]) ++ [1])
      | _ => none := by
    rw [handleMatch, tokenCaptures]
    cases hdeclaring <;> split <;> simp [Match.capture?, typeCapture]
  have htoken := descendant?_token hroot hselects
  obtain ⟨form, tokenAnnotations⟩ := token
  rw [captured?, hcapture, reference?]
  split
  · rename_i x reference hform
    subst hform
    rw [Option.bind_some, Expr.descendant?_append, htoken]
    rfl
  · rfl

end Captured

theorem capture?_declaringType_present (path : Expr.Path) (token : Expr) :
    (handleMatch path token [typeCapture path]).capture? "declaringType" =
      some (path ++ [2, 0]) := by
  rw [handleMatch, tokenCaptures]
  split <;> simp [Match.capture?, typeCapture]

theorem declaringType?_present {root target token first e : Expr} {annotations : Annotations}
    {path : Expr.Path} {type : TypeSyntax}
    (hroot : root.descendant? path = some ⟨.call target [first, e], annotations⟩)
    (selects : SelectsType type e) :
    declaringType? (handleMatch path token [typeCapture path]) root = some type := by
  obtain ⟨_, typeAnnotations, ⟨memberAnnotations, rfl⟩, rfl⟩ := selects
  rw [declaringType?, captured?, capture?_declaringType_present, Option.bind_some,
    Expr.descendant?_append, hroot]
  rfl

theorem withReference_call (target reference replacement : Expr) (annotations : Annotations) :
    withReference ⟨.call target [reference], annotations⟩ replacement =
      ⟨.call target [replacement], annotations⟩ := by
  simp [withReference, Expr.replaceAt, Expr.modifyAt, Expr.modifyChild, Form.mapSlots]

/-- What a field token becomes, given what stands behind it in the call. -/
inductive FieldToken : List Expr → Expr → Expr → Prop
  | bare (token : Expr) : FieldToken [] token token
  | qualified {type : TypeSyntax} {e target reference : Expr} {annotations : Annotations}
    {field : Field} (selects : SelectsType type e) (known : reference.field? = some field) :
    FieldToken [e] ⟨.call target [reference], annotations⟩
      ⟨.call target [memberOf type field.name reference], annotations⟩

/-- What a method token becomes, given what stands behind it in the call. -/
inductive MethodToken (spelling : Spelling) : List Expr → Expr → Expr → Prop
  | bare (token : Expr) : MethodToken spelling [] token token
  | qualified {type : TypeSyntax} {e target reference : Expr} {annotations : Annotations}
    {method : Method} (selects : SelectsType type e)
    (known : reference.method? = some method) :
    MethodToken spelling [e] ⟨.call target [reference], annotations⟩
      ⟨.call target [signature spelling type method reference], annotations⟩
  | unqualified {type : TypeSyntax} {e token : Expr} (selects : SelectsType type e)
    (unknown : ∀ target reference annotations,
      token = ⟨.call target [reference], annotations⟩ → reference.method? = none) :
    MethodToken spelling [e] token token

/-- A reference that was made to name a member on its declaring type. -/
inductive NamesMember (spelling : Spelling) : Expr → Prop
  | field (type : TypeSyntax) (name : String) (reference : Expr) :
    NamesMember spelling (memberOf type name reference)
  | method (type : TypeSyntax) (method : Method) (reference : Expr) :
    NamesMember spelling (signature spelling type method reference)

/-- A token stays as it is, or such a reference takes the place of the one inside. -/
inductive Retargets (spelling : Spelling) : Expr → Expr → Prop
  | kept (token : Expr) : Retargets spelling token token
  | named {target reference made : Expr} {annotations : Annotations}
    (names : NamesMember spelling made) :
    Retargets spelling ⟨.call target [reference], annotations⟩
      ⟨.call target [made], annotations⟩

theorem FieldToken.retargets {rest : List Expr} {token replacement : Expr}
    (h : FieldToken rest token replacement) (spelling : Spelling) :
    Retargets spelling token replacement := by
  cases h with
  | bare => exact .kept token
  | qualified => exact .named (.field _ _ _)

theorem MethodToken.retargets {spelling : Spelling} {rest : List Expr} {token replacement : Expr}
    (h : MethodToken spelling rest token replacement) : Retargets spelling token replacement := by
  cases h with
  | bare => exact .kept token
  | qualified => exact .named (.method _ _ _)
  | unqualified => exact .kept token

theorem MethodToken.declaring {spelling : Spelling} {rest : List Expr} {token replacement : Expr}
    (h : MethodToken spelling rest token replacement) (path : Expr.Path) :
    ∃ more, Declaring path rest more := by
  cases h with
  | bare => exact ⟨[], .absent⟩
  | qualified selects => exact ⟨_, .present selects⟩
  | unqualified selects => exact ⟨_, .present selects⟩

theorem match?_fieldPattern_iff {call : Expr} {m : Match} :
    match? fieldPattern call = some m ↔
      ∃ target first rest annotations token more,
        call = ⟨.call target (first :: rest), annotations⟩ ∧
        ResolvesTo fieldFromHandle annotations ∧ Selects "FieldHandle" token first ∧
        Annotations.hasLoadToken token.annotations = true ∧ Declaring [] rest more ∧
        m = handleMatch [] token more := by
  have hpattern : fieldPattern = .callOf fieldFromHandle (handleItems "FieldHandle") := rfl
  rw [match?, hpattern, run_callOf_iff]
  simp only [Match.start, runItems_handleItems_iff]
  constructor
  · intro h
    obtain ⟨target, _, annotations, rfl, hresolves, first, rest, token, more, rfl, h⟩ := h
    exact ⟨target, first, rest, annotations, token, more, rfl, hresolves, h⟩
  · intro h
    obtain ⟨target, first, rest, annotations, token, more, rfl, hresolves, h⟩ := h
    exact ⟨target, _, annotations, rfl, hresolves, first, rest, token, more, rfl, h⟩

theorem match?_methodPattern_iff {cast : Expr} {m : Match} :
    match? methodPattern cast = some m ↔
      ∃ type target first rest callAnnotations annotations token more,
        cast = ⟨.cast type ⟨.call target (first :: rest), callAnnotations⟩, annotations⟩ ∧
        methodInfoTypes.any type.refersTo = true ∧
        ResolvesTo methodFromHandle callAnnotations ∧ Selects "MethodHandle" token first ∧
        Annotations.hasLoadToken token.annotations = true ∧ Declaring [0] rest more ∧
        m = handleMatch [0] token more := by
  have hpattern : methodPattern =
    .castTo methodInfoTypes (.callOf methodFromHandle (handleItems "MethodHandle")) := rfl
  rw [match?, hpattern]
  constructor
  · intro h
    obtain ⟨form, annotations⟩ := cast
    simp only [run] at h
    split at h
    · rename_i _ type operand
      split at h
      · rename_i htype
        obtain ⟨part, inner, hpart, hrun, rfl⟩ := Match.descend_eq_some_iff.mp h
        cases hpart
        obtain ⟨target, _, callAnnotations, rfl, hresolves, hitems⟩ := run_callOf_iff.mp hrun
        obtain ⟨first, rest, token, more, rfl, hselects, hload, hdeclaring, rfl⟩ :=
          runItems_handleItems_iff.mp hitems
        exact ⟨type, target, first, rest, callAnnotations, annotations, token, more, rfl, htype,
          hresolves, hselects, hload, hdeclaring, rfl⟩
      · cases h
    · cases h
  · intro h
    obtain ⟨type, target, first, rest, callAnnotations, annotations, token, more, rfl, htype,
      hresolves, hselects, hload, hdeclaring, rfl⟩ := h
    simp only [run, htype, if_true]
    refine Match.descend_eq_some_iff.mpr
      ⟨_, ⟨[0], tokenCaptures ([0] ++ [1, 0]) token ++ more⟩, rfl, ?_, rfl⟩
    refine run_callOf_iff.mpr ⟨target, _, callAnnotations, rfl, hresolves, ?_⟩
    exact runItems_handleItems_iff.mpr
      ⟨first, rest, token, more, rfl, hselects, hload, hdeclaring, rfl⟩

theorem field?_eq_some_iff {call result : Expr} :
    field? call = some result ↔
      ∃ target first rest annotations token replacement,
        call = ⟨.call target (first :: rest), annotations⟩ ∧
        ResolvesTo fieldFromHandle annotations ∧ Selects "FieldHandle" token first ∧
        Annotations.hasLoadToken token.annotations = true ∧
        FieldToken rest token replacement ∧
        result = replacement.inheritInstructions annotations := by
  simp only [field?, Option.bind_eq_bind, Option.bind_eq_some_iff, match?_fieldPattern_iff]
  constructor
  · intro h
    obtain ⟨_, ⟨target, first, rest, annotations, token, more, rfl, hresolves, hselects, hload,
      hdeclaring, rfl⟩, token', htoken, h⟩ := h
    rw [captured?_token rfl hselects, Option.some.injEq] at htoken
    subst htoken
    refine ⟨target, first, rest, annotations, token, ?_⟩
    cases hdeclaring with
    | absent =>
      rw [capture?_declaringType_absent] at h
      cases h
      exact ⟨token, rfl, hresolves, hselects, hload, .bare token, rfl⟩
    | present selects =>
      rename_i type e
      have hroot : Expr.descendant? [] ⟨.call target [first, e], annotations⟩ = some _ := rfl
      rw [capture?_declaringType_present] at h
      simp only [declaringType?_present hroot selects,
        captured?_reference hroot hselects (.present selects), Option.bind_some,
        Option.bind_eq_some_iff] at h
      obtain ⟨reference, hreference, field, hfield, h⟩ := h
      obtain ⟨tokenTarget, tokenAnnotations, rfl⟩ := reference?_eq_some hreference
      rw [withReference_call] at h
      cases h
      exact ⟨_, rfl, hresolves, hselects, hload, .qualified selects hfield, rfl⟩
  · intro h
    obtain ⟨target, first, rest, annotations, token, replacement, rfl, hresolves, hselects, hload,
      hreplacement, rfl⟩ := h
    cases hreplacement with
    | bare =>
      refine ⟨_, ⟨target, first, [], annotations, token, [], rfl, hresolves, hselects, hload,
        .absent, rfl⟩, token, captured?_token rfl hselects, ?_⟩
      rw [capture?_declaringType_absent]
      rfl
    | qualified selects known =>
      rename_i type e tokenTarget reference tokenAnnotations field
      have hroot : Expr.descendant? [] ⟨.call target [first, e], annotations⟩ = some _ := rfl
      refine ⟨_, ⟨target, first, _, annotations, _, _, rfl, hresolves, hselects, hload,
        .present selects, rfl⟩, _, captured?_token hroot hselects, ?_⟩
      rw [capture?_declaringType_present]
      simp only [declaringType?_present hroot selects,
        captured?_reference hroot hselects (.present selects), Option.bind_some, reference?,
        known, withReference_call]
      rfl

theorem qualifiedMethod?_absent (spelling : Spelling) (root : Expr) (path : Expr.Path)
    (token : Expr) : qualifiedMethod? spelling (handleMatch path token []) root = none := by
  simp [qualifiedMethod?, declaringType?, captured?, capture?_declaringType_absent]

theorem qualifiedMethod?_present {spelling : Spelling} {root target first token e : Expr}
    {annotations : Annotations} {path : Expr.Path} {name : String} {type : TypeSyntax}
    (hroot : root.descendant? path = some ⟨.call target [first, e], annotations⟩)
    (hselects : Selects name token first) (selects : SelectsType type e) :
    qualifiedMethod? spelling (handleMatch path token [typeCapture path]) root =
      (reference? token).bind fun reference => reference.method?.map fun method =>
        signature spelling type method reference := by
  simp only [qualifiedMethod?, declaringType?_present hroot selects,
    captured?_reference hroot hselects (.present selects), Option.bind_eq_bind,
    Option.bind_some, Option.pure_def, Option.map_eq_bind, Function.comp_def]

/-- The token with its method named on the type that stands behind it, if there is one. -/
theorem methodToken_present_iff {spelling : Spelling} {token replacement e : Expr}
    {type : TypeSyntax} (selects : SelectsType type e) :
    MethodToken spelling [e] token replacement ↔
      replacement = match (reference? token).bind fun reference =>
          reference.method?.map fun method => signature spelling type method reference with
        | some reference => withReference token reference
        | none => token := by
  constructor
  · intro h
    cases h with
    | qualified selects' known =>
      have htype := selects.unique selects'
      subst htype
      simp [reference?, known, withReference_call]
    | unqualified selects' unknown =>
      cases hreference : reference? token with
      | none => rfl
      | some reference =>
        obtain ⟨tokenTarget, tokenAnnotations, htoken⟩ := reference?_eq_some hreference
        simp [unknown _ _ _ htoken]
  · intro h
    subst h
    cases hreference : reference? token with
    | none =>
      refine .unqualified selects fun tokenTarget reference tokenAnnotations htoken => ?_
      subst htoken
      cases hreference
    | some reference =>
      obtain ⟨tokenTarget, tokenAnnotations, rfl⟩ := reference?_eq_some hreference
      cases hmethod : reference.method? with
      | none =>
        simp only [Option.bind_some, hmethod, Option.map_none]
        refine .unqualified selects fun _ _ _ htoken => ?_
        cases htoken
        exact hmethod
      | some method =>
        simp only [Option.bind_some, hmethod, Option.map_some, withReference_call]
        exact .qualified selects hmethod

/-- What the method rule puts in the place of a token follows from what stands behind it. -/
theorem methodToken_iff {spelling : Spelling} {root target first token replacement : Expr}
    {rest : List Expr} {annotations : Annotations} {path : Expr.Path} {name : String}
    {more : List Capture}
    (hroot : root.descendant? path = some ⟨.call target (first :: rest), annotations⟩)
    (hselects : Selects name token first) (hdeclaring : Declaring path rest more) :
    MethodToken spelling rest token replacement ↔
      replacement = match qualifiedMethod? spelling (handleMatch path token more) root with
        | some reference => withReference token reference
        | none => token := by
  cases hdeclaring with
  | absent =>
    rw [qualifiedMethod?_absent]
    constructor
    · intro h
      cases h
      rfl
    · intro h
      subst h
      exact .bare _
  | present selects =>
    rw [qualifiedMethod?_present hroot hselects selects]
    exact methodToken_present_iff selects

theorem method?_eq_some_iff {spelling : Spelling} {cast result : Expr} :
    method? spelling cast = some result ↔
      ∃ type target first rest callAnnotations annotations token replacement,
        cast = ⟨.cast type ⟨.call target (first :: rest), callAnnotations⟩, annotations⟩ ∧
        methodInfoTypes.any type.refersTo = true ∧
        ResolvesTo methodFromHandle callAnnotations ∧ Selects "MethodHandle" token first ∧
        Annotations.hasLoadToken token.annotations = true ∧
        MethodToken spelling rest token replacement ∧
        result = replacement.annotate annotations := by
  simp only [method?, Option.bind_eq_bind, Option.bind_eq_some_iff, match?_methodPattern_iff,
    Option.pure_def, Option.some.injEq]
  constructor
  · intro h
    obtain ⟨_, ⟨type, target, first, rest, callAnnotations, annotations, token, more, rfl, htype,
      hresolves, hselects, hload, hdeclaring, rfl⟩, token', htoken, rfl⟩ := h
    have hroot : Expr.descendant? [0]
        ⟨.cast type ⟨.call target (first :: rest), callAnnotations⟩, annotations⟩ = some _ := rfl
    rw [captured?_token hroot hselects, Option.some.injEq] at htoken
    subst htoken
    exact ⟨type, target, first, rest, callAnnotations, annotations, token, _, rfl, htype,
      hresolves, hselects, hload, (methodToken_iff hroot hselects hdeclaring).mpr rfl, rfl⟩
  · intro h
    obtain ⟨type, target, first, rest, callAnnotations, annotations, token, replacement, rfl,
      htype, hresolves, hselects, hload, hreplacement, rfl⟩ := h
    have hroot : Expr.descendant? [0]
        ⟨.cast type ⟨.call target (first :: rest), callAnnotations⟩, annotations⟩ = some _ := rfl
    obtain ⟨more, hdeclaring⟩ := hreplacement.declaring [0]
    refine ⟨_, ⟨type, target, first, rest, callAnnotations, annotations, token, more, rfl, htype,
      hresolves, hselects, hload, hdeclaring, rfl⟩, token, captured?_token hroot hselects, ?_⟩
    have htoken := (methodToken_iff hroot hselects hdeclaring).mp hreplacement
    subst htoken
    rfl

end Handle

end OperatorRecovery
