import OperatorRecovery.Proofs.Invariants
import OperatorRecovery.Proofs.Settling

/-!
What one run leaves behind. A tree is a normal form when every rule declines every
node in the role in which it stands, and the normal forms are the trees that a run
keeps. The output of a run is one as soon as the input has no casts with a method,
no conversions to the types that method handles are cast to, and no truth tests
that load a token. In general only loaded tokens and conversions of the output can
be rewritten by a second run.
-/

namespace OperatorRecovery

open OperatorCall (Untested)

theorem Form.eq_cast_of_mapRoles {g : Role → ε → δ} {form : Form ε} {type : TypeSyntax}
    {operand : δ} (h : form.mapRoles g = .cast type operand) :
    ∃ inner, form = .cast type inner := by
  cases form with
  | cast type' inner =>
    cases h
    exact ⟨inner, rfl⟩
  | _ => cases h

theorem Form.eq_call_of_mapRoles {g : Role → ε → δ} {form : Form ε} {target argument : δ}
    (h : form.mapRoles g = .call target [argument]) :
    ∃ target' argument', form = .call target' [argument'] := by
  cases form with
  | call target' arguments =>
    simp only [mapRoles, mapSlots, mapIdx_const, Form.call.injEq, List.map_eq_singleton_iff] at h
    obtain ⟨_, argument', rfl, _⟩ := h
    exact ⟨target', argument', rfl⟩
  | _ => cases h

namespace Pass

/-- A node that one run is enough for. -/
structure Ordinary (spelling : Spelling) (e : Expr) : Prop where
  cast : ∀ type operand, e.form = .cast type operand → e.method? = none
  conversion : ∀ target argument method, e.form = .call target [argument] →
    e.method? = some method → method.name = OperatorCall.explicitName →
    Handle.methodInfoTypes.any (spelling method.returnType).refersTo = false
  truthTest : ∀ target argument, e.form = .call target [argument] →
    OperatorCall.isTrueTest e.annotations = true →
    Annotations.hasLoadToken e.annotations = false

def isOrdinary (spelling : Spelling) (e : Expr) : Bool :=
  match e.form with
  | .cast _ _ => e.method?.isNone
  | .call _ [_] =>
    e.method?.all (fun method => method.name != OperatorCall.explicitName ||
      !Handle.methodInfoTypes.any (spelling method.returnType).refersTo) &&
      !(OperatorCall.isTrueTest e.annotations && Annotations.hasLoadToken e.annotations)
  | _ => true

theorem isOrdinary_iff {spelling : Spelling} {e : Expr} :
    isOrdinary spelling e = true ↔ Ordinary spelling e := by
  obtain ⟨form, annotations⟩ := e
  unfold isOrdinary
  constructor
  · intro h
    split at h
    · rename_i type operand hform
      cases hform
      exact ⟨fun _ _ _ => Option.isNone_iff_eq_none.mp h, nofun, nofun⟩
    · rename_i target argument hform
      cases hform
      rw [Bool.and_eq_true, Option.all_eq_true, Bool.not_eq_true', Bool.and_eq_false_imp] at h
      refine ⟨nofun, fun _ _ method _ resolved named => ?_, fun _ _ _ tests => h.2 tests⟩
      have hmethod := h.1 method resolved
      simpa [named] using hmethod
    · rename_i hcast hcall
      exact ⟨fun type operand hform => absurd hform (hcast type operand),
        fun target argument _ hform => absurd hform (hcall target argument),
        fun target argument hform => absurd hform (hcall target argument)⟩
  · intro h
    split
    · rename_i type operand hform
      exact Option.isNone_iff_eq_none.mpr (h.cast type operand hform)
    · rename_i target argument hform
      rw [Bool.and_eq_true, Option.all_eq_true, Bool.not_eq_true', Bool.and_eq_false_imp]
      refine ⟨fun method resolved => ?_, h.truthTest target argument hform⟩
      by_cases named : method.name = OperatorCall.explicitName
      · rw [h.conversion target argument method hform resolved named, Bool.not_false, Bool.or_true]
      · rw [bne_iff_ne.mpr named, Bool.true_or]
    · rfl

instance (spelling : Spelling) (e : Expr) : Decidable (Ordinary spelling e) :=
  decidable_of_iff (isOrdinary spelling e = true) isOrdinary_iff

theorem Ordinary.reshape {spelling : Spelling} {form : Form Expr} {annotations : Annotations}
    (g : Role → Expr → Expr) (h : Ordinary spelling ⟨form, annotations⟩) :
    Ordinary spelling ⟨form.mapRoles g, annotations⟩ where
  cast := by
    intro type operand hform
    obtain ⟨inner, hinner⟩ := Form.eq_cast_of_mapRoles hform
    exact h.cast type inner hinner
  conversion := by
    intro target argument method hform
    obtain ⟨target', argument', hcall⟩ := Form.eq_call_of_mapRoles hform
    exact h.conversion target' argument' method hcall
  truthTest := by
    intro target argument hform
    obtain ⟨target', argument', hcall⟩ := Form.eq_call_of_mapRoles hform
    exact h.truthTest target' argument' hcall

variable {settings : Settings} {spelling : Spelling} {role : Role}

variable (settings spelling) in
/-- Every rule declines the node, and would in every role if the node loads a token. -/
def IsSettled (role : Role) (e : Expr) : Prop :=
  (∀ result, ¬ Rewrites settings spelling role e result) ∧
    (Annotations.hasLoadToken e.annotations = true → Untested e)

/-- An untested node is settled wherever it stands and whatever it takes over but a method. -/
theorem IsSettled.append {role' : Role} {form : Form Expr} {annotations appended : Annotations}
    (h : IsSettled settings spelling role ⟨form, annotations⟩)
    (untested : Untested ⟨form, annotations⟩) (hmethod : Annotations.method? appended = none) :
    IsSettled settings spelling role' ⟨form, annotations ++ appended⟩ := by
  constructor
  · intro result hrewrites
    obtain ⟨result', hrewrites'⟩ := hrewrites.of_append hmethod untested
    exact h.1 result' hrewrites'
  · intro _ target argument hform
    rw [OperatorCall.isTrueTest, Annotations.method?_append hmethod]
    exact untested target argument hform

/-- A loaded token is still one, and settled, when it is given another reference. -/
theorem IsSettled.retargets {token replacement : Expr}
    (h : IsSettled settings spelling .expression token)
    (loads : Annotations.hasLoadToken token.annotations = true)
    (retargets : Handle.Retargets spelling token replacement) :
    IsSettled settings spelling .expression replacement ∧
      Annotations.hasLoadToken replacement.annotations = true := by
  cases retargets with
  | kept => exact ⟨h, loads⟩
  | @named target reference made annotations names =>
    refine ⟨⟨?_, ?_⟩, loads⟩
    · intro result hrewrites
      obtain ⟨result', hrewrites'⟩ :=
        hrewrites.replaceArgument (offersNoHandle_of_namesMember names)
      exact h.1 result' hrewrites'
    · intro _ target' argument _
      exact h.2 loads target reference rfl

/-- Over ordinary nodes a run settles everything. -/
theorem invariant_isSettled :
    Invariant settings spelling (Ordinary spelling) (IsSettled settings spelling) where
  reshape := Ordinary.reshape
  declined := by
    intro role e hordinary hdeclined
    refine ⟨hdeclined, fun loads target argument hform => ?_⟩
    cases htests : OperatorCall.isTrueTest e.annotations with
    | false => rfl
    | true =>
      rw [hordinary.truthTest target argument hform htests] at loads
      cases loads
  inert := by
    intro role e hinert
    refine ⟨fun _ => not_rewrites_of_isInert hinert, fun _ target argument hform => ?_⟩
    have hnone : Annotations.method? e.annotations = none := hinert.1 target [argument] hform
    rw [OperatorCall.isTrueTest, hnone]
    rfl
  operand := by
    intro role e h
    exact ⟨fun result hrewrites => h.1 result hrewrites.of_expression, h.2⟩
  tested := by
    intro role form annotations ranges huntested h
    exact h.append huntested (Annotations.method?_ofInstructions ranges)
  conversion := by
    -- The cast was made at a call, so the rule of casts never sees it in this run.
    intro role target argument annotations method operand hordinary resolved named
    refine ⟨fun result hrewrites => ?_, fun _ => OperatorCall.untested_cast _ _ _⟩
    have hrefers := hordinary.conversion target argument method rfl resolved named
    cases hrewrites with
    | methodHandle enabled refers =>
      rw [hrefers] at refers
      cases refers
  token := by
    intro role token replacement appended hannotations loads retargets h
    have hmethod : Annotations.method? appended = none := by
      rcases hannotations with hnone | ⟨type, operand, hordinary⟩
      · exact hnone
      · exact hordinary.cast type operand rfl
    obtain ⟨form, annotations⟩ := replacement
    obtain ⟨hreplacement, hloads⟩ := h.retargets loads retargets
    exact hreplacement.append (hreplacement.2 hloads) hmethod

/-- A node that a second run may still rewrite: a call that loads a token, which may
have taken over a method or come to stand in a condition. -/
def IsLoadedCall (e : Expr) : Prop :=
  (∃ target arguments, e.form = .call target arguments) ∧
    Annotations.hasLoadToken e.annotations = true

/-- The other such node: a conversion, which the rule of casts has not seen. -/
def IsConversion (e : Expr) : Prop :=
  (∃ type operand, e.form = .cast type operand) ∧
    ∃ method, e.method? = some method ∧ method.name = OperatorCall.explicitName

variable (settings spelling) in
/-- What holds of every node of an output, whatever the input. -/
def IsNearlySettled (role : Role) (e : Expr) : Prop :=
  (∀ result, ¬ Rewrites settings spelling role e result) ∨ IsLoadedCall e ∨ IsConversion e

theorem IsConversion.append {form : Form Expr} {annotations : Annotations}
    (h : IsConversion ⟨form, annotations⟩) (appended : Annotations) :
    IsConversion ⟨form, annotations ++ appended⟩ := by
  obtain ⟨hform, method, resolved, named⟩ := h
  exact ⟨hform, method, Annotations.method?_append_of_some resolved appended, named⟩

/-- A loaded token is nearly settled wherever it stands and whatever it takes over. -/
theorem IsNearlySettled.token {form : Form Expr} {annotations : Annotations}
    (h : IsNearlySettled settings spelling .expression ⟨form, annotations⟩)
    (loads : Annotations.hasLoadToken annotations = true) (appended : Annotations) :
    IsNearlySettled settings spelling role ⟨form, annotations ++ appended⟩ := by
  have hloads := Annotations.hasLoadToken_append_of_left loads appended
  cases form with
  | call target arguments => exact Or.inr (Or.inl ⟨⟨target, arguments, rfl⟩, hloads⟩)
  | cast type operand =>
    rcases h with hdeclined | ⟨⟨_, _, hform⟩, _⟩ | hconversion
    · left
      intro result hrewrites
      obtain ⟨result', hrewrites'⟩ := hrewrites.reannotate_cast
      exact hdeclined result' (hrewrites'.move fun _ => Or.inr (OperatorCall.untested_cast _ _ _))
    · cases hform
    · exact Or.inr (Or.inr (hconversion.append appended))
  | _ => exact Or.inl fun _ => not_rewrites_of_isInert (isInert_of_isFixed rfl)

/-- A run settles every node but loaded calls and conversions. -/
theorem invariant_isNearlySettled :
    Invariant settings spelling (fun _ => True) (IsNearlySettled settings spelling) where
  reshape := fun _ _ => trivial
  declined := fun _ hdeclined => Or.inl hdeclined
  inert := fun hinert => Or.inl fun _ => not_rewrites_of_isInert hinert
  operand := by
    intro role e h
    rcases h with hdeclined | hexcepted
    · exact Or.inl fun result hrewrites => hdeclined result hrewrites.of_expression
    · exact Or.inr hexcepted
  tested := by
    intro role form annotations ranges huntested h
    rcases h with hdeclined | ⟨hform, loads⟩ | hconversion
    · left
      intro result hrewrites
      obtain ⟨result', hrewrites'⟩ :=
        hrewrites.of_append (Annotations.method?_ofInstructions ranges) huntested
      exact hdeclined result' hrewrites'
    · exact Or.inr (Or.inl ⟨hform, Annotations.hasLoadToken_append_of_left loads _⟩)
    · exact Or.inr (Or.inr (hconversion.append _))
  conversion := by
    intro role target argument annotations method operand _ resolved named
    exact Or.inr (Or.inr ⟨⟨_, operand, rfl⟩, method, resolved, named⟩)
  token := by
    intro role token replacement appended _ loads retargets h
    cases retargets with
    | kept =>
      obtain ⟨form, annotations⟩ := token
      exact h.token loads appended
    | named =>
      exact Or.inr (Or.inl ⟨⟨_, _, rfl⟩, Annotations.hasLoadToken_append_of_left loads appended⟩)

end Pass

section NormalForms

variable {settings : Settings} {spelling : Spelling}

/-- A run keeps an expression exactly when every node of it is declined. -/
theorem Expr.recoverIn_eq_self_iff (role : Role) (e : Expr) :
    e.recoverIn settings spelling role = e ↔
      Every (fun role e => ∀ result, ¬ Pass.Rewrites settings spelling role e result) role e := by
  induction e using induction_on_parts generalizing role with
  | step e ih =>
    obtain ⟨form, annotations⟩ := e
    rw [every_mk]
    constructor
    · intro hkept
      have hparts := slots_recoverIn_eq hkept
      rw [recoverIn_mk, ← Form.mapRoles, Form.mapRoles_eq_self form hparts] at hkept
      constructor
      · rcases @Pass.recoverNode_cases settings spelling role ⟨form, annotations⟩ with h | ⟨_, h⟩
        · rw [hkept] at h
          exact absurd h.work_lt (Nat.lt_irrefl _)
        · exact h
      · intro slot hslot
        exact (ih slot.2 (Form.mem_parts_of_mem_slots hslot) slot.1).mp (hparts slot hslot)
    · intro hdeclined
      have hparts : ∀ slot ∈ form.slots, slot.2.recoverIn settings spelling slot.1 = slot.2 :=
        fun slot hslot => (ih slot.2 (Form.mem_parts_of_mem_slots hslot) slot.1).mpr
          (hdeclined.2 slot hslot)
      rw [recoverIn_mk, ← Form.mapRoles, Form.mapRoles_eq_self form hparts]
      rcases @Pass.recoverNode_cases settings spelling role ⟨form, annotations⟩ with h | ⟨h, _⟩
      · exact absurd h (hdeclined.1 _)
      · exact h

theorem Tree.recover_eq_self_iff_declined (t : Tree) :
    t.recover settings spelling = t ↔
      ∀ node ∈ t.nodes, ∀ result, ¬ Pass.Rewrites settings spelling node.1 node.2 result := by
  rw [recover_eq_self_iff, t.forall_nodes_iff fun role e =>
    ∀ result, ¬ Pass.Rewrites settings spelling role e result]
  simp only [Expr.recoverIn_eq_self_iff]

/-- The two places in the pass where a node is declined. -/
theorem Pass.forall_not_rewrites_iff (role : Role) (e : Expr) :
    (∀ result, ¬ Rewrites settings spelling role e result) ↔
      (∀ target arguments, e.form = .call target arguments →
        dispatch? settings spelling role e = none) ∧
      (settings.isEnabled .handleUnwrapping = true → ∀ type operand, e.form = .cast type operand →
        Handle.method? spelling e = none) := by
  obtain ⟨form, annotations⟩ := e
  cases form with
  | call target arguments =>
    rw [← dispatch?_eq_none_iff]
    exact ⟨fun h => ⟨fun _ _ _ => h, nofun⟩, fun h => h.1 target arguments rfl⟩
  | cast type operand =>
    rw [← method?_eq_none_iff]
    exact ⟨fun h => ⟨nofun, fun enabled _ _ _ => h enabled⟩,
      fun h enabled => h.2 enabled type operand rfl⟩
  | _ =>
    exact ⟨fun _ => ⟨nofun, nofun⟩, fun _ _ => not_rewrites_of_isInert (isInert_of_isFixed rfl)⟩

/-- From ordinary nodes one run leads to a tree that no run changes. -/
theorem Tree.recover_recover {t : Tree} (h : ∀ node ∈ t.nodes, Pass.Ordinary spelling node.2) :
    (t.recover settings spelling).recover settings spelling = t.recover settings spelling := by
  rw [recover_eq_self_iff_declined]
  intro node hnode
  exact (Pass.invariant_isSettled.forall_nodes_recover h node hnode).1

/-- The output of a run over ordinary nodes is a normal form: every call is declined in
the role in which it stands, and so is every cast if handles are unwrapped. -/
theorem Tree.recover_isNormal (settings : Settings) (spelling : Spelling) (t : Tree)
    (h : ∀ node ∈ t.nodes, Pass.Ordinary spelling node.2) :
    ∀ node ∈ (t.recover settings spelling).nodes,
      (∀ target arguments, node.2.form = .call target arguments →
        Pass.dispatch? settings spelling node.1 node.2 = none) ∧
      (settings.isEnabled .handleUnwrapping = true →
        ∀ type operand, node.2.form = .cast type operand →
          Handle.method? spelling node.2 = none) := by
  intro node hnode
  have hsettled := Pass.invariant_isSettled.forall_nodes_recover h node hnode
  exact (Pass.forall_not_rewrites_iff node.1 node.2).mp hsettled.1

/-- `while (op_True(in op_True(op_Explicit(x))))`, where the conversion leads to an integer. -/
def nestedTests : Tree :=
  let test : Method := ⟨"op_True", .named "N" "C" [], true, [], .builtin .boolean, []⟩
  let conversion : Method := ⟨"op_Explicit", .named "N" "C" [], true, [], .builtin .int32, []⟩
  let inner := Expr.staticCall test [.staticCall conversion [.ofForm (.identifier "x")]]
  .stmt (.while (.staticCall test [.ofForm (.directed .readonly inner)]) [])

theorem recover_nestedTests_isNormal :
    (∀ node ∈ nestedTests.nodes, Pass.Ordinary (SpellingStyle.spell ⟨true, false⟩) node.2) ∧
      ∀ node ∈ (nestedTests.recover .initial (SpellingStyle.spell ⟨true, false⟩)).nodes,
        (∀ target arguments, node.2.form = .call target arguments →
          Pass.dispatch? .initial (SpellingStyle.spell ⟨true, false⟩) node.1 node.2 = none) ∧
        (Settings.initial.isEnabled .handleUnwrapping = true →
          ∀ type operand, node.2.form = .cast type operand →
            Handle.method? (SpellingStyle.spell ⟨true, false⟩) node.2 = none) :=
  have hordinary : ∀ node ∈ nestedTests.nodes,
      Pass.Ordinary (SpellingStyle.spell ⟨true, false⟩) node.2 := by decide
  ⟨hordinary, Tree.recover_isNormal .initial (SpellingStyle.spell ⟨true, false⟩) nestedTests
    hordinary⟩

/-- A second run changes nothing exactly when it finds no loaded call and no conversion to
rewrite; everything else one run settles. -/
theorem Tree.recover_recover_eq_iff (settings : Settings) (spelling : Spelling) (t : Tree) :
    (t.recover settings spelling).recover settings spelling = t.recover settings spelling ↔
      ∀ node ∈ (t.recover settings spelling).nodes,
        (Pass.IsLoadedCall node.2 → Pass.dispatch? settings spelling node.1 node.2 = none) ∧
        (Pass.IsConversion node.2 → settings.isEnabled .handleUnwrapping = true →
          Handle.method? spelling node.2 = none) := by
  rw [recover_eq_self_iff_declined]
  constructor
  · intro hdeclined node hnode
    have hrules := (Pass.forall_not_rewrites_iff node.1 node.2).mp (hdeclined node hnode)
    constructor
    · intro h
      obtain ⟨⟨target, arguments, hform⟩, _⟩ := h
      exact hrules.1 target arguments hform
    · intro h enabled
      obtain ⟨⟨type, operand, hform⟩, _⟩ := h
      exact hrules.2 enabled type operand hform
  · intro hrules node hnode
    have hnearly := Pass.invariant_isNearlySettled.forall_nodes_recover (fun _ _ => trivial)
      node hnode
    rcases hnearly with hdeclined | hloaded | hconversion
    · exact hdeclined
    · rw [Pass.forall_not_rewrites_iff]
      refine ⟨fun _ _ _ => (hrules node hnode).1 hloaded, fun _ type operand hform => ?_⟩
      obtain ⟨⟨target, arguments, hcall⟩, _⟩ := hloaded
      cases hcall.symm.trans hform
    · rw [Pass.forall_not_rewrites_iff]
      refine ⟨fun target arguments hform => ?_,
        fun enabled _ _ _ => (hrules node hnode).2 hconversion enabled⟩
      obtain ⟨⟨type, operand, hcast⟩, _⟩ := hconversion
      cases hcast.symm.trans hform

/-- The conversion of a loaded method's handle to `MethodInfo`. -/
def convertedHandle : Expr :=
  .staticCall ⟨"op_Explicit", .named "N" "C" [], true, [],
      .named "System.Reflection" "MethodInfo" [], []⟩
    [.staticCall (.ofName (.named "System.Reflection" "MethodBase" []) "GetMethodFromHandle")
      [.ofForm (.member ⟨.identifier "m", [.loadToken]⟩ "MethodHandle" [])]]

/-- The first run makes the conversion a cast, and the second one unwraps the handle in it. -/
theorem recover_recover_convertedHandle_ne :
    ((Tree.expr convertedHandle).recover .initial (SpellingStyle.spell ⟨true, false⟩)).recover
        .initial (SpellingStyle.spell ⟨true, false⟩) ≠
      (Tree.expr convertedHandle).recover .initial (SpellingStyle.spell ⟨true, false⟩) := by
  have hfirst : ∃ type operand annotations, (Tree.expr convertedHandle).recover .initial
      (SpellingStyle.spell ⟨true, false⟩) = .expr ⟨.cast type operand, annotations⟩ :=
    ⟨_, _, _, rfl⟩
  have hsecond : ∃ annotations, ((Tree.expr convertedHandle).recover .initial
      (SpellingStyle.spell ⟨true, false⟩)).recover .initial (SpellingStyle.spell ⟨true, false⟩) =
        .expr ⟨.identifier "m", annotations⟩ := ⟨_, rfl⟩
  obtain ⟨type, operand, annotations, hfirst⟩ := hfirst
  obtain ⟨annotations', hsecond⟩ := hsecond
  rw [hsecond, hfirst]
  intro h
  cases h

end NormalForms

end OperatorRecovery
