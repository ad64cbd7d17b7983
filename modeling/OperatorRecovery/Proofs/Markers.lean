import OperatorRecovery.Proofs.MadeNodes

/-!
Names and `in` markers belong to the elements of argument lists. Rules that make
operands of arguments have to leave both behind. Operators drop `in` but keep a name,
and the rules for text decline names but keep `in`, so each of them lets one marker out.
A run over a tree in which no call has that marker keeps all others in their places.
-/

namespace OperatorRecovery

/-- A name or an `in` in front of an argument. -/
inductive Marker
  | name
  | readonly
  deriving DecidableEq, Repr

namespace Form

def marker? : Form ε → Option Marker
  | .named _ _ => some .name
  | .directed .readonly _ => some .readonly
  | _ => none

theorem marker?_of_isMade {form : Form ε} (h : form.isMade = true) : form.marker? = none := by
  cases form with
  | named | directed => cases h
  | _ => rfl

/-- Markers stand in argument lists, and `in` also under a name. -/
def Admits (form : Form ε) (role : Role) : Marker → Prop
  | .name => role = .argument
  | .readonly => role = .argument ∨ form.marker? = some .name

instance (form : Form ε) (role : Role) : DecidablePred (form.Admits role)
  | .name => inferInstanceAs (Decidable (role = .argument))
  | .readonly => inferInstanceAs (Decidable (role = .argument ∨ form.marker? = some .name))

theorem marker?_mapRoles (g : Role → ε → δ) (form : Form ε) :
    (form.mapRoles g).marker? = form.marker? := by
  cases form with
  | directed direction => cases direction <;> rfl
  | _ => rfl

theorem admits_mapRoles (g : Role → ε → δ) (form : Form ε) (role : Role) (marker : Marker) :
    (form.mapRoles g).Admits role marker ↔ form.Admits role marker := by
  cases marker with
  | name => rfl
  | readonly => rw [Admits, Admits, marker?_mapRoles]

end Form

namespace Expr

def marker? (e : Expr) : Option Marker := e.form.marker?

theorem isNamed_iff {e : Expr} : e.isNamed = true ↔ e.marker? = some .name := by
  obtain ⟨form, annotations⟩ := e
  cases form with
  | directed direction => cases direction <;> simp [isNamed, marker?, Form.isNamed, Form.marker?]
  | _ => simp [isNamed, marker?, Form.isNamed, Form.marker?]

/-- The parts of an expression have only markers that their places admit. -/
def MarkersFit (e : Expr) : Prop :=
  ∀ slot ∈ e.form.slots, ∀ marker ∈ slot.2.marker?, e.form.Admits slot.1 marker

instance (e : Expr) : Decidable e.MarkersFit :=
  inferInstanceAs (Decidable (∀ slot ∈ e.form.slots, ∀ marker ∈ slot.2.marker?,
    e.form.Admits slot.1 marker))

theorem MarkersFit.marker?_eq_none {e part : Expr} {role : Role} (h : e.MarkersFit)
    (hslot : (role, part) ∈ e.form.slots) (hrole : role ≠ .argument)
    (hname : e.isNamed = false) : part.marker? = none := by
  rw [Option.eq_none_iff_forall_not_mem]
  intro marker hmarker
  have hadmits := h (role, part) hslot marker hmarker
  cases marker with
  | name => exact hrole hadmits
  | readonly =>
    rcases hadmits with hargument | hnamed
    · exact hrole hargument
    · rw [isNamed_iff.mpr hnamed] at hname
      cases hname

theorem MarkersFit.mapRoles {form : Form Expr} {annotations : Annotations} {g : Role → Expr → Expr}
    (h : MarkersFit ⟨form, annotations⟩)
    (hg : ∀ slot ∈ form.slots, (g slot.1 slot.2).marker? = slot.2.marker?) :
    MarkersFit ⟨form.mapRoles g, annotations⟩ := by
  unfold MarkersFit
  simp only [Form.slots_mapRoles, List.forall_mem_map, Form.admits_mapRoles]
  intro slot hslot
  rw [hg slot hslot]
  exact h slot hslot

end Expr

namespace Pass

open OperatorRecovery.Expr

/-- Some enabled rule takes a call with that many arguments for an operator. -/
def takesOperands (settings : Settings) (method : Method) : Nat → Bool
  | 1 =>
    settings.isEnabled .unaryOperators && (UnaryOperator.ofMetadataName? method.name).isSome ||
      settings.isEnabled .explicitConversion && method.name == OperatorCall.explicitName ||
      settings.isEnabled .operatorTrue && method.name == OperatorCall.trueName
  | 2 => settings.isEnabled .binaryOperators &&
      (BinaryOperator.ofMetadataName? method.name).any (OperatorCall.isAvailable settings)
  | _ => false

/-- Some enabled rule joins arguments with these markers to one text, one of them with `in`. -/
def joinsReadonly (settings : Settings) (method : Method) : List (Option Marker) → Bool
  | first :: second :: rest =>
    settings.isEnabled .stringConcat && Concatenation.accepts method &&
        some .readonly ∈ first :: second :: rest ||
      settings.interpolatesStrings && method.fullName == Interpolation.methodName &&
        some .readonly ∈ second :: rest
  | _ => false

/-- A call with these markers would keep one of them outside the argument list. -/
def exposes (settings : Settings) (method : Method) (markers : List (Option Marker)) : Bool :=
  if some .name ∈ markers then takesOperands settings method markers.length
  else joinsReadonly settings method markers

/-- A call that would expose a marker of its arguments, or a cast that can pass the method
of a truth test on to such a call. -/
def exposesMarker (settings : Settings) (e : Expr) : Bool :=
  match e.form with
  | .call _ arguments => e.method?.any (exposes settings · (arguments.map marker?))
  | .cast _ _ => settings.isEnabled .handleUnwrapping && settings.isEnabled .operatorTrue &&
      OperatorCall.isTrueTest e.annotations
  | _ => false

theorem exposesMarker_mapRoles {settings : Settings} {form : Form Expr} {annotations : Annotations}
    {g : Role → Expr → Expr}
    (hg : ∀ slot ∈ form.slots, (g slot.1 slot.2).marker? = slot.2.marker?) :
    exposesMarker settings ⟨form.mapRoles g, annotations⟩ =
      exposesMarker settings ⟨form, annotations⟩ := by
  cases form with
  | call target arguments =>
    have harguments : (arguments.map (g .argument)).map marker? = arguments.map marker? := by
      rw [List.map_map]
      exact List.map_congr_left fun argument hargument =>
        hg (.argument, argument) (List.mem_cons_of_mem _ (List.mem_map_of_mem hargument))
    simp only [Form.mapRoles, Form.mapSlots, Form.mapIdx_const, exposesMarker, harguments]
    rfl
  | _ => rfl

variable (settings : Settings)

/-- A node whose markers stand in their places and that, if truth tests are stripped, is no
test of a named argument. -/
structure WellMarked (_ : Role) (e : Expr) : Prop where
  fit : e.MarkersFit
  tested : settings.isEnabled .operatorTrue = true →
    OperatorCall.isTrueTest e.annotations = true →
    ∀ target argument, e.form = .call target [argument] → argument.marker? ≠ some .name

/-- What may stand anywhere: no marker itself, and all markers inside in their places. -/
structure IsOperand (e : Expr) : Prop where
  unmarked : e.marker? = none
  inside : ∀ role, Every (WellMarked settings) role e

variable {settings} {spelling : Spelling} {role : Role} {form : Form Expr}
  {annotations annotations' : Annotations}

theorem every_wellMarked {e : Expr} (h : Every (WellMarked settings) role e) (role' : Role) :
    Every (WellMarked settings) role' e :=
  h.move rfl ⟨h.self.fit, h.self.tested⟩

theorem isOperand_of_operands (hform : form.marker? = none)
    (h : ∀ slot ∈ form.slots, IsOperand settings slot.2) :
    IsOperand settings ⟨form, annotations⟩ where
  unmarked := hform
  inside role := by
    rw [every_mk]
    refine ⟨⟨?_, ?_⟩, fun slot hslot => (h slot hslot).inside slot.1⟩
    · intro slot hslot marker hmarker
      rw [(h slot hslot).unmarked] at hmarker
      cases hmarker
    · rintro _ _ target argument ⟨⟩
      rw [(h (.argument, argument) (List.mem_cons_of_mem _ List.mem_cons_self)).unmarked]
      nofun

theorem accrues_isOperand : Accrues (IsOperand settings) where
  make hmade hparts := isOperand_of_operands (Form.marker?_of_isMade hmade) fun slot hslot =>
    hparts slot.2 (Form.mem_parts_of_mem_slots hslot)

theorem isOperand_of_every {e : Expr} (h : Every (WellMarked settings) role e)
    (hmarker : e.marker? = none) : IsOperand settings e :=
  ⟨hmarker, every_wellMarked h⟩

/-- The parts of an operand that are no arguments are operands. -/
theorem isOperand_of_slot {e part : Expr} (h : Every (WellMarked settings) role e)
    {role' : Role} (hslot : (role', part) ∈ e.form.slots) (hrole : role' ≠ .argument)
    (hname : e.isNamed = false) : IsOperand settings part :=
  isOperand_of_every (h.slots _ hslot) (h.self.fit.marker?_eq_none hslot hrole hname)

theorem IsOperand.reannotate (h : IsOperand settings ⟨form, annotations⟩)
    (htested : settings.isEnabled .operatorTrue = true →
      OperatorCall.isTrueTest annotations' = true → OperatorCall.isTrueTest annotations = true) :
    IsOperand settings ⟨form, annotations'⟩ := by
  have hinside := h.inside .expression
  have hself : WellMarked settings .expression ⟨form, annotations'⟩ :=
    ⟨hinside.self.fit, fun enabled tests => hinside.self.tested enabled (htested enabled tests)⟩
  exact isOperand_of_every (hinside.move rfl hself) h.unmarked

/-- Instruction ranges make no test. -/
theorem IsOperand.append_instructions (h : IsOperand settings ⟨form, annotations⟩)
    (ranges : List InstructionRange) :
    IsOperand settings ⟨form, annotations ++ Annotations.ofInstructions ranges⟩ := by
  apply h.reannotate
  intro _ tests
  rwa [OperatorCall.isTrueTest, Annotations.method?_append_ofInstructions] at tests

section Arguments

variable {argument : Expr}

theorem isOperand_operand (h : Every (WellMarked settings) role argument)
    (hname : argument.marker? ≠ some .name) :
    IsOperand settings (OperatorCall.operand argument) := by
  obtain ⟨form, annotations⟩ := argument
  unfold OperatorCall.operand
  split
  · rename_i inner hform
    cases hform
    exact isOperand_of_slot h List.mem_cons_self (by decide) rfl
  · rename_i hreadonly
    apply isOperand_of_every h
    cases form with
    | named name inner => exact absurd rfl hname
    | directed direction inner =>
      cases direction with
      | readonly => exact absurd rfl (hreadonly inner)
      | _ => rfl
    | _ => rfl

/-- Every test on the way tests an argument without a name. -/
theorem isOperand_stripsTo (enabled : settings.isEnabled .operatorTrue = true)
    {e inner : Expr} {ranges : List InstructionRange}
    (strips : OperatorCall.StripsTo e inner ranges) (h : IsOperand settings e) :
    IsOperand settings inner := by
  induction strips with
  | stop => exact h
  | @test target argument inner annotations ranges tests strips ih =>
    have hself := (h.inside .expression).self
    have hargument := (h.inside .expression).slots (.argument, argument)
      (List.mem_cons_of_mem _ List.mem_cons_self)
    exact ih (isOperand_operand hargument (hself.tested enabled tests target argument rfl))

end Arguments

section Tokens

/-- Of two lists of annotations one makes a test. -/
theorem isTrueTest_of_append {appended : Annotations}
    (h : OperatorCall.isTrueTest (annotations ++ appended) = true) :
    OperatorCall.isTrueTest annotations = true ∨ OperatorCall.isTrueTest appended = true := by
  simp only [OperatorCall.isTrueTest, Annotations.method?, Annotations.symbol?_append] at h ⊢
  cases hsymbol : Annotations.symbol? annotations with
  | none => exact Or.inr (by simpa only [hsymbol, Option.none_or] using h)
  | some symbol => exact Or.inl (by simpa only [hsymbol, Option.some_or] using h)

theorem isOperand_selected {name : String} {target e : Expr}
    (h : Every (WellMarked settings) role e) (selects : Handle.Selects name target e) :
    IsOperand settings target := by
  obtain ⟨annotations, rfl⟩ := selects
  exact isOperand_of_slot h List.mem_cons_self (by decide) rfl

/-- A token that takes over annotations becomes no test by them if truth tests are stripped. -/
theorem isOperand_retargets {token replacement : Expr} {appended : Annotations}
    (h : IsOperand settings token) (retargets : Handle.Retargets spelling token replacement)
    (htested : settings.isEnabled .operatorTrue = true →
      OperatorCall.isTrueTest appended = false) :
    IsOperand settings (replacement.annotate appended) := by
  cases retargets with
  | kept =>
    obtain ⟨form, annotations⟩ := token
    apply h.reannotate
    intro enabled tests
    rcases isTrueTest_of_append tests with htoken | happended
    · exact htoken
    · rw [htested enabled] at happended
      cases happended
  | @named target reference made annotations names =>
    apply isOperand_of_operands rfl
    simp only [Form.slots, List.map_cons, List.map_nil, List.forall_mem_cons]
    exact ⟨isOperand_of_slot (h.inside .expression) List.mem_cons_self (by decide) rfl,
      accrues_isOperand.namesMember names, List.forall_mem_nil _⟩

end Tokens

section Steps

variable {target : Expr} {arguments : List Expr}

/-- Operators take no names. -/
theorem marker?_ne_name {method : Method}
    (h : exposesMarker settings ⟨.call target arguments, annotations⟩ = false)
    (resolved : Annotations.method? annotations = some method)
    (takes : takesOperands settings method arguments.length = true) :
    ∀ argument ∈ arguments, argument.marker? ≠ some .name := by
  intro argument hargument hname
  have hmem : some Marker.name ∈ arguments.map marker? :=
    List.mem_map.mpr ⟨argument, hargument, hname⟩
  simp [exposesMarker, Expr.method?, resolved, exposes, hmem, takes] at h

theorem wellMarked_of_fit {e : Expr} (h : exposesMarker settings e = false) (hfit : e.MarkersFit) :
    WellMarked settings role e where
  fit := hfit
  tested := by
    intro enabled tests target argument hform
    obtain ⟨form, annotations⟩ := e
    cases hform
    obtain ⟨method, resolved, named⟩ := OperatorCall.isTrueTest_iff.mp tests
    exact marker?_ne_name h resolved (by simp [takesOperands, enabled, named]) argument
      List.mem_cons_self

theorem joinsReadonly_eq_false {method : Method}
    (h : exposesMarker settings ⟨.call target arguments, annotations⟩ = false)
    (resolved : Annotations.method? annotations = some method)
    (unnamed : arguments.any isNamed = false) :
    joinsReadonly settings method (arguments.map marker?) = false := by
  have hnone : some Marker.name ∉ arguments.map marker? := by
    intro hmem
    obtain ⟨argument, hargument, hname⟩ := List.mem_map.mp hmem
    rw [List.any_eq_false] at unnamed
    exact unnamed argument hargument (isNamed_iff.mpr hname)
  simpa [exposesMarker, Expr.method?, resolved, exposes, hnone] using h

/-- Arguments with neither marker are operands. -/
theorem isOperand_of_unnamed
    (hevery : ∀ argument ∈ arguments, Every (WellMarked settings) role argument)
    (unnamed : arguments.any isNamed = false) (hreadonly : some .readonly ∉ arguments.map marker?) :
    ∀ argument ∈ arguments, IsOperand settings argument := by
  intro argument hargument
  apply isOperand_of_every (hevery argument hargument)
  rw [Option.eq_none_iff_forall_ne_some]
  rintro (_ | _) hmarker
  · rw [List.any_eq_false] at unnamed
    exact unnamed argument hargument (isNamed_iff.mpr hmarker)
  · exact hreadonly (List.mem_map.mpr ⟨argument, hargument, hmarker⟩)

theorem Rewrites.marker?_eq_none {e result : Expr} (h : Rewrites settings spelling role e result) :
    e.marker? = none := by
  cases h <;> rfl

/-- A rewrite of a call that exposes no marker makes an operand. -/
theorem Rewrites.isOperand {e result : Expr} (h : Rewrites settings spelling role e result)
    (hexposes : exposesMarker settings e = false)
    (hslots : ∀ slot ∈ e.form.slots, Every (WellMarked settings) slot.1 slot.2) :
    IsOperand settings result := by
  have harguments : ∀ argument ∈ e.form.arguments, Every (WellMarked settings) .argument argument :=
    every_arguments hslots
  cases h with
  | @concatenation target first second rest annotations method enabled resolved accepted unnamed =>
    have hjoins := joinsReadonly_eq_false hexposes resolved unnamed
    simp only [List.map_cons, joinsReadonly, enabled, accepted, Bool.and_self, Bool.true_and,
      Bool.or_eq_false_iff, decide_eq_false_iff_not] at hjoins
    obtain ⟨left, right, own, hchain⟩ := Concatenation.exists_chain_eq first second rest
    have hoperand := accrues_isOperand.chain (isOperand_of_unnamed harguments unnamed hjoins.1)
    -- The outermost addition takes over the annotations of the call, so it is built anew.
    rw [hchain] at hoperand ⊢
    have hinside := hoperand.inside .expression
    exact accrues_isOperand.binary (isOperand_of_slot hinside List.mem_cons_self (by decide) rfl)
      (isOperand_of_slot hinside (List.mem_cons_of_mem _ List.mem_cons_self) (by decide) rfl)
  | @typeHandle target argument operand annotations enabled resolves selects isOperand =>
    obtain ⟨form, own⟩ := operand
    exact (isOperand_selected (harguments _ List.mem_cons_self) selects).append_instructions _
  | fieldHandle enabled resolves selects loads replaces =>
    apply isOperand_retargets (isOperand_selected (harguments _ List.mem_cons_self) selects)
      (replaces.retargets spelling)
    intro _
    rw [OperatorCall.isTrueTest, Annotations.method?_ofInstructions]
    rfl
  | instantiation => exact accrues_isOperand.make rfl (List.forall_mem_nil _)
  | @interpolation target format first rest annotations method text segments enabled resolved named
      literals unnamed spread literal planned =>
    have hjoins := joinsReadonly_eq_false hexposes resolved unnamed
    simp only [List.map_cons, joinsReadonly, enabled, named, beq_self_eq_true, Bool.and_self,
      Bool.true_and, Bool.or_eq_false_iff, decide_eq_false_iff_not] at hjoins
    obtain ⟨_, hunnamed⟩ := Bool.or_eq_false_iff.mp unnamed
    exact accrues_isOperand.interpolated planned
      (isOperand_of_unnamed (List.forall_mem_cons.mp harguments).2 hunnamed hjoins.2)
  | @binary target left right annotations method op enabled resolved named available =>
    have hname := marker?_ne_name hexposes resolved
      (by simp [takesOperands, enabled, named, available])
    simp only [Form.arguments, List.forall_mem_cons] at harguments hname
    exact accrues_isOperand.binary (isOperand_operand harguments.1 hname.1)
      (isOperand_operand harguments.2.1 hname.2.1)
  | @unary target argument annotations method op enabled resolved named =>
    have hname := marker?_ne_name hexposes resolved (by simp [takesOperands, enabled, named])
    exact accrues_isOperand.unaryForm method op (isOperand_operand (harguments _ List.mem_cons_self)
      (hname _ List.mem_cons_self))
  | @conversion target argument annotations method enabled resolved named =>
    have hname := marker?_ne_name hexposes resolved (by simp [takesOperands, enabled, named])
    exact isOperand_of_operands rfl (List.forall_mem_singleton.mpr
      (isOperand_operand (harguments _ List.mem_cons_self) (hname _ List.mem_cons_self)))
  | @truthTest target argument annotations enabled condition tests =>
    obtain ⟨method, resolved, named⟩ := OperatorCall.isTrueTest_iff.mp tests
    have hname := marker?_ne_name hexposes resolved (by simp [takesOperands, enabled, named])
    have hoperand := isOperand_operand (harguments _ List.mem_cons_self)
      (hname _ List.mem_cons_self)
    rw [OperatorCall.stripTrueTests_call tests]
    obtain ⟨form, own, ranges, hstrips, heq⟩ := OperatorCall.exists_stripsTo
      (Annotations.instructions annotations ++ []) (OperatorCall.operand argument)
    rw [heq]
    exact (isOperand_stripsTo enabled hstrips hoperand).append_instructions _
  | @methodHandle type target first token replacement rest callAnnotations annotations enabled
      refers resolves selects loads replaces =>
    have hcall : Every (WellMarked settings) .expression
        ⟨.call target (first :: rest), callAnnotations⟩ :=
      hslots (.expression, _) (List.mem_singleton.mpr rfl)
    have hfirst := every_arguments hcall.slots first List.mem_cons_self
    apply isOperand_retargets (isOperand_selected hfirst selects) replaces.retargets
    intro stripped
    simpa [exposesMarker, enabled, stripped] using hexposes

end Steps

end Pass

section Runs

variable (settings : Settings) (spelling : Spelling)

open Pass (WellMarked exposesMarker)

variable {settings} in
/-- A run keeps the marker of every expression and puts none out of its place inside. -/
theorem Expr.markers_recoverIn {role : Role} {e : Expr}
    (h : Every (fun _ e => e.MarkersFit ∧ exposesMarker settings e = false) role e) :
    Every (WellMarked settings) role (e.recoverIn settings spelling role) ∧
      (e.recoverIn settings spelling role).marker? = e.marker? := by
  induction e using induction_on_parts generalizing role with
  | step e ih =>
    obtain ⟨form, annotations⟩ := e
    rw [recoverIn_mk, ← Form.mapRoles]
    have hparts : ∀ slot ∈ form.slots, _ := fun slot hslot =>
      ih slot.2 (Form.mem_parts_of_mem_slots hslot) (h.slots slot hslot)
    have hevery : ∀ slot ∈ (form.mapRoles fun role part =>
        part.recoverIn settings spelling role).slots,
          Every (WellMarked settings) slot.1 slot.2 := by
      rw [Form.slots_mapRoles, List.forall_mem_map]
      exact fun slot hslot => (hparts slot hslot).1
    have hfit := h.self.1.mapRoles fun slot hslot => (hparts slot hslot).2
    have hexposes := (Pass.exposesMarker_mapRoles fun slot hslot => (hparts slot hslot).2).trans
      h.self.2
    -- Only calls and casts are rewritten, and these are no markers before either.
    rcases @Pass.recoverNode_cases settings spelling role
      ⟨form.mapRoles fun role part => part.recoverIn settings spelling role, annotations⟩ with
      hrewrites | ⟨heq, _⟩
    · have hoperand := hrewrites.isOperand hexposes hevery
      have hmarker := hrewrites.marker?_eq_none
      rw [marker?, Form.marker?_mapRoles] at hmarker
      exact ⟨hoperand.inside role, hoperand.unmarked.trans hmarker.symm⟩
    · rw [heq]
      exact ⟨(every_mk _ _ _).mpr ⟨Pass.wellMarked_of_fit hexposes hfit, hevery⟩,
        Form.marker?_mapRoles _ form⟩

namespace Tree

/-- Every marker of a tree stands in its place. -/
structure MarkersPlaced (t : Tree) : Prop where
  roots : ∀ root ∈ t.roots, root.2.marker? = none
  nodes : ∀ node ∈ t.nodes, node.2.MarkersFit

instance (t : Tree) : Decidable t.MarkersPlaced :=
  decidable_of_iff ((∀ root ∈ t.roots, root.2.marker? = none) ∧ ∀ node ∈ t.nodes, node.2.MarkersFit)
    ⟨fun h => ⟨h.1, h.2⟩, fun h => ⟨h.roots, h.nodes⟩⟩

/-- A run keeps all markers in their places where no call exposes one. -/
theorem markersPlaced_recover {t : Tree} (placed : t.MarkersPlaced)
    (unexposed : ∀ node ∈ t.nodes, exposesMarker settings node.2 = false) :
    (t.recover settings spelling).MarkersPlaced := by
  have hroots := (t.forall_nodes_iff fun _ e => e.MarkersFit ∧ exposesMarker settings e = false).mp
    fun node hnode => ⟨placed.nodes node hnode, unexposed node hnode⟩
  constructor
  · rw [roots_recover, List.forall_mem_map]
    intro root hroot
    exact (Expr.markers_recoverIn spelling (hroots root hroot)).2.trans (placed.roots root hroot)
  · rw [forall_nodes_iff _ fun _ e => e.MarkersFit, roots_recover, List.forall_mem_map]
    intro root hroot node hnode
    exact ((Expr.markers_recoverIn spelling (hroots root hroot)).1 node hnode).fit

/-- `while (op_True(in op_True(M(right: in b, left: a)))) { Concat(s, op_Addition(in x, y)); }`. -/
def markedCalls : Tree :=
  let type : ResolvedType := .named "N" "C" []
  let test : Method := ⟨"op_True", type, true, [], .builtin .boolean, []⟩
  let sum : Method := ⟨"op_Addition", type, true, [], type, []⟩
  let name (s : String) : Expr := .ofForm (.identifier s)
  let marked (e : Expr) : Expr := .ofForm (.directed .readonly e)
  let call := Expr.staticCall (.ofName type "M")
    [.ofForm (.named "right" (marked (name "b"))), .ofForm (.named "left" (name "a"))]
  .stmt (.while (.staticCall test [marked (.staticCall test [call])])
    [.expr (.staticCall (.ofName (.builtin .string) "Concat")
      [⟨.identifier "s", [.resolvedType (.builtin .string)]⟩,
        .staticCall sum [marked (name "x"), name "y"]])])

theorem markersPlaced_recover_markedCalls :
    markedCalls.MarkersPlaced ∧
      (∀ node ∈ markedCalls.nodes, exposesMarker .initial node.2 = false) ∧
      (markedCalls.recover .initial (SpellingStyle.spell ⟨true, false⟩)).MarkersPlaced :=
  have placed : markedCalls.MarkersPlaced := by decide
  have unexposed : ∀ node ∈ markedCalls.nodes, exposesMarker .initial node.2 = false := by decide
  ⟨placed, unexposed,
    markersPlaced_recover .initial (SpellingStyle.spell ⟨true, false⟩) placed unexposed⟩

/-- `op_Addition(right: b, left: a)`. -/
def namedSum : Tree :=
  .expr (.staticCall ⟨"op_Addition", .named "N" "C" [], true, [], .named "N" "C" [], []⟩
    [.ofForm (.named "right" (.ofForm (.identifier "b"))),
      .ofForm (.named "left" (.ofForm (.identifier "a")))])

/-- A sum of named arguments becomes `(right: b) + (left: a)`. -/
theorem not_markersPlaced_recover_namedSum :
    namedSum.MarkersPlaced ∧
      ¬ (namedSum.recover .initial (SpellingStyle.spell ⟨true, false⟩)).MarkersPlaced := by
  decide

end Tree

end Runs

end OperatorRecovery
