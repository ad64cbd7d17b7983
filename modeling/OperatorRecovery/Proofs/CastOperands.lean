import OperatorRecovery.Proofs.MadeNodes
import OperatorRecovery.Proofs.NormalForm
import OperatorRecovery.Proofs.PrefixOperators
import OperatorRecovery.Proofs.Provenance
import OperatorRecovery.Proofs.RuleOrder

/-!
Casts of the output. A name in parentheses before a sign reads as a subtraction or an addition,
so behind a cast to a type that is no keyword the operand must not begin with one. The printer
puts an operand in parentheses by its precedence alone, and prefix operators bind as tight as
casts. A run makes casts of conversions and keeps those of its input around recovered operands;
all other casts of the output are among these, in the places to which the rules have moved them.
So the output has no operand that begins with a sign where none of the casts that are made and
kept has one.
-/

namespace OperatorRecovery

namespace TypeSyntax

def isKeyword : TypeSyntax → Bool
  | .keyword _ => true
  | _ => false

end TypeSyntax

/-- The type and the operand of a cast. -/
structure CastParts where
  type : TypeSyntax
  operand : Expr

/-- The text of the cast reads as a sum or a difference. -/
def CastParts.isMisread (c : CastParts) : Bool := !c.type.isKeyword && c.operand.opensWithSign

def Form.cast? : Form Expr → Option CastParts
  | .cast type operand => some ⟨type, operand⟩
  | _ => none

theorem Form.cast?_of_isMade {form : Form Expr} (h : form.isMade = true) : form.cast? = none := by
  cases form with
  | cast => cases h
  | _ => rfl

namespace Expr

/-- What holds of every cast of an expression, wherever it stands. -/
def CastsHold (P : CastParts → Prop) (e : Expr) : Prop :=
  Every (fun _ e => ∀ c ∈ e.form.cast?, P c) .expression e

variable {P : CastParts → Prop} {e : Expr} {form : Form Expr} {annotations : Annotations}

theorem castsHold_iff_every (role : Role) :
    e.CastsHold P ↔ Every (fun _ e => ∀ c ∈ e.form.cast?, P c) role e :=
  ⟨fun h => h.move rfl h.self, fun h => h.move rfl h.self⟩

theorem castsHold_mk :
    CastsHold P ⟨form, annotations⟩ ↔
      (∀ c ∈ form.cast?, P c) ∧ ∀ part ∈ form.parts, part.CastsHold P := by
  rw [CastsHold, every_mk, Form.parts, List.forall_mem_map]
  exact and_congr_right fun _ =>
    forall₂_congr fun slot _ => (castsHold_iff_every (P := P) slot.1).symm

theorem CastsHold.of_mem {part : Expr} (h : e.CastsHold P) (hpart : part ∈ e.form.parts) :
    part.CastsHold P := by
  obtain ⟨form, annotations⟩ := e
  exact (castsHold_mk.mp h).2 part hpart

theorem castsHold_of_parts (hcast : form.cast? = none)
    (h : ∀ part ∈ form.parts, part.CastsHold P) : CastsHold P ⟨form, annotations⟩ :=
  castsHold_mk.mpr ⟨by simp [hcast], h⟩

/-- Annotations make no cast. -/
theorem CastsHold.reannotate {e' : Expr} (h : e.CastsHold P) (hform : e'.form = e.form) :
    e'.CastsHold P := by
  obtain ⟨form, annotations⟩ := e
  obtain ⟨form', annotations'⟩ := e'
  cases hform
  exact castsHold_mk.mpr (castsHold_mk.mp h)

/-- Of the nodes that rules make, only conversions have casts of their own. -/
theorem hereditary_castsHold : Hereditary (CastsHold P) where
  make hmade hparts := castsHold_of_parts (Form.cast?_of_isMade hmade) hparts
  of_mem := CastsHold.of_mem
  reannotate := CastsHold.reannotate

end Expr

namespace Pass

variable {settings : Settings} {spelling : Spelling}

variable (settings spelling) in
/-- The cast that a run leaves or makes in the place of a node: a cast from which no handle is
unwrapped, or a conversion. -/
def madeCast? (e : Expr) : Option CastParts :=
  match e.form with
  | .cast type operand =>
    let recovered := operand.recoverIn settings spelling .expression
    if settings.isEnabled .handleUnwrapping &&
        (Handle.method? spelling ⟨.cast type recovered, e.annotations⟩).isSome then none
    else some ⟨type, recovered⟩
  | .call _ [argument] =>
    if settings.isEnabled .explicitConversion then
      (e.method?.filter (·.name == OperatorCall.explicitName)).map fun method =>
        ⟨spelling method.returnType,
          OperatorCall.operand (argument.recoverIn settings spelling .argument)⟩
    else none
  | _ => none

section Made

variable {type : TypeSyntax} {target argument operand : Expr} {annotations : Annotations}
  {method : Method} {c : CastParts}

theorem madeCast?_conversion (enabled : settings.isEnabled .explicitConversion = true)
    (resolved : Annotations.method? annotations = some method)
    (named : method.name = OperatorCall.explicitName) :
    madeCast? settings spelling ⟨.call target [argument], annotations⟩ =
      some ⟨spelling method.returnType,
        OperatorCall.operand (argument.recoverIn settings spelling .argument)⟩ := by
  simp [madeCast?, enabled, Expr.method?, resolved, named]

theorem madeCast?_kept {role : Role} (declined : ∀ result, ¬ Rewrites settings spelling role
      ⟨.cast type (operand.recoverIn settings spelling .expression), annotations⟩ result) :
    madeCast? settings spelling ⟨.cast type operand, annotations⟩ =
      some ⟨type, operand.recoverIn settings spelling .expression⟩ := by
  have hnone := method?_eq_none_iff.mpr declined
  simp only [madeCast?, ite_eq_right_iff, Bool.and_eq_true, reduceCtorEq, imp_false]
  rintro ⟨enabled, hsome⟩
  rw [hnone enabled] at hsome
  cases hsome

theorem recoverNode_of_declined {role : Role} {e : Expr}
    (declined : ∀ result, ¬ Rewrites settings spelling role e result) :
    recoverNode settings spelling role e = e := by
  rcases @recoverNode_cases settings spelling role e with hrewrites | ⟨hself, _⟩
  · exact absurd hrewrites (declined _)
  · exact hself

theorem recoverNode_conversion (role : Role)
    (enabled : settings.isEnabled .explicitConversion = true)
    (resolved : Annotations.method? annotations = some method)
    (named : method.name = OperatorCall.explicitName) :
    recoverNode settings spelling role ⟨.call target [argument], annotations⟩ =
      ⟨.cast (spelling method.returnType) (OperatorCall.operand argument), annotations⟩ := by
  have hrule : recoverBy? settings spelling role method ⟨.call target [argument], annotations⟩
      .explicitConversion = some
        ⟨.cast (spelling method.returnType) (OperatorCall.operand argument), annotations⟩ := by
    rw [recoverBy?, if_pos enabled]
    exact OperatorCall.explicit?_eq_some_iff.mpr ⟨argument, rfl, named, rfl⟩
  have hdispatch := (dispatch?_eq_some_iff resolved).mpr ⟨_, hrule⟩
  simp only [recoverNode, hdispatch, Option.getD_some]

/-- A node that becomes a cast becomes this one. -/
theorem cast?_recoverIn (role : Role) {e : Expr} (h : madeCast? settings spelling e = some c) :
    (e.recoverIn settings spelling role).form.cast? = some c := by
  obtain ⟨form, annotations⟩ := e
  rw [Expr.recoverIn_mk]
  unfold madeCast? at h
  split at h
  · rename_i type operand hform
    cases hform
    simp only [Option.ite_none_left_eq_some, Bool.and_eq_true, not_and,
      Option.not_isSome_iff_eq_none] at h
    have declined : ∀ result, ¬ Rewrites settings spelling role
        ⟨.cast type (operand.recoverIn settings spelling .expression), annotations⟩ result :=
      method?_eq_none_iff.mp h.1
    exact (congrArg (fun e : Expr => e.form.cast?) (recoverNode_of_declined declined)).trans h.2
  · rename_i target argument hform
    cases hform
    rw [Option.ite_none_right_eq_some, Option.map_eq_some_iff] at h
    obtain ⟨enabled, method, hmethod, rfl⟩ := h
    obtain ⟨resolved, named⟩ := Option.filter_eq_some_iff.mp hmethod
    exact congrArg (fun e : Expr => e.form.cast?)
      (recoverNode_conversion role enabled resolved (eq_of_beq named))
  · cases h

end Made

end Pass

open Pass (madeCast?)

variable {settings : Settings} {spelling : Spelling}

/-- Every cast of the output comes from a node that becomes it. -/
theorem Expr.castsHold_recoverIn {P : CastParts → Prop} {role : Role} {e : Expr}
    (h : Every (fun _ e => ∀ c ∈ madeCast? settings spelling e, P c) role e) :
    (e.recoverIn settings spelling role).CastsHold P := by
  induction e using induction_on_parts generalizing role with
  | step e ih =>
    obtain ⟨form, annotations⟩ := e
    have hparts : ∀ part ∈ (form.mapRoles fun role part =>
        part.recoverIn settings spelling role).parts, part.CastsHold P := by
      rw [Form.parts, Form.slots_mapRoles, List.map_map, List.forall_mem_map]
      intro slot hslot
      exact ih slot.2 (Form.mem_parts_of_mem_slots hslot) (h.slots slot hslot)
    rw [recoverIn_mk, ← Form.mapRoles]
    rcases @Pass.recoverNode_cases settings spelling role
      ⟨form.mapRoles fun role part => part.recoverIn settings spelling role, annotations⟩ with
      hrewrites | ⟨heq, hdeclined⟩
    · apply hereditary_castsHold.rewrites hrewrites hparts
      intro target argument own method hcall enabled resolved named
      obtain ⟨hform, rfl⟩ := Expr.mk.inj hcall
      obtain ⟨target', argument', rfl⟩ := Form.eq_call_of_mapRoles hform
      cases hform
      obtain ⟨_, hargument⟩ := List.forall_mem_cons.mp hparts
      refine castsHold_mk.mpr ⟨?_, List.forall_mem_singleton.mpr
        (hereditary_castsHold.operand (hargument _ List.mem_cons_self))⟩
      rintro c ⟨⟩
      exact h.self _ (Pass.madeCast?_conversion enabled resolved named)
    · rw [heq]
      cases form with
      | cast type operand =>
        refine castsHold_mk.mpr ⟨?_, hparts⟩
        rintro c ⟨⟩
        exact h.self _ (Pass.madeCast?_kept hdeclined)
      | _ => exact castsHold_of_parts rfl hparts

/-- A property of every node holds of every node of each of them. -/
theorem Expr.Every.of_mem_nodes {Q : Role → Expr → Prop} {role : Role} {e : Expr}
    (h : Every Q role e) : ∀ node ∈ e.nodes role, Every Q node.1 node.2 := by
  induction e using induction_on_parts generalizing role with
  | step e ih =>
    obtain ⟨form, annotations⟩ := e
    rw [nodes_mk]
    simp only [List.forall_mem_cons, List.mem_flatMap]
    refine ⟨h, fun node hnode => ?_⟩
    obtain ⟨slot, hslot, hnode⟩ := hnode
    exact ih slot.2 (Form.mem_parts_of_mem_slots hslot) (h.slots slot hslot) node hnode

namespace Tree

/-- No cast of a run's output is misread where none of those that it leaves or makes is. -/
theorem casts_recover_read {t : Tree}
    (h : ∀ node ∈ t.nodes, ∀ c ∈ madeCast? settings spelling node.2, c.isMisread = false) :
    ∀ node ∈ (t.recover settings spelling).nodes, ∀ c ∈ node.2.form.cast?,
      c.isMisread = false := by
  have hroots := (t.forall_nodes_iff fun _ e =>
    ∀ c ∈ madeCast? settings spelling e, c.isMisread = false).mp h
  rw [forall_nodes_iff _ fun _ e => ∀ c ∈ e.form.cast?, c.isMisread = false, roots_recover,
    List.forall_mem_map]
  intro root hroot
  exact (Expr.castsHold_iff_every root.1).mp (Expr.castsHold_recoverIn (hroots root hroot))

/-- Over all expressions of a tree the condition is exact: where one of them becomes a misread
cast, a run on that expression alone leaves it. -/
theorem casts_recoverIn_read_iff (t : Tree) :
    (∀ node ∈ t.nodes, (node.2.recoverIn settings spelling node.1).CastsHold
        fun c => c.isMisread = false) ↔
      ∀ node ∈ t.nodes, ∀ c ∈ madeCast? settings spelling node.2, c.isMisread = false := by
  constructor
  · intro h node hnode c hc
    exact (h node hnode).self c (Pass.cast?_recoverIn node.1 hc)
  · intro h node hnode
    obtain ⟨root, hroot, hnode⟩ := List.mem_flatMap.mp hnode
    have hevery := (t.forall_nodes_iff fun _ e =>
      ∀ c ∈ madeCast? settings spelling e, c.isMisread = false).mp h root hroot
    exact Expr.castsHold_recoverIn (hevery.of_mem_nodes node hnode)

/-- `op_Explicit(op_Addition(a, (int)-b))`. -/
def convertedSum : Tree :=
  let type : ResolvedType := .named "N" "C" []
  .expr (.staticCall ⟨"op_Explicit", type, true, [], type, []⟩
    [.staticCall ⟨"op_Addition", type, true, [], type, []⟩
      [.ofForm (.identifier "a"),
        .ofForm (.cast (.keyword "int") (.ofForm (.unary .minus (.ofForm (.identifier "b")))))]])

/-- The sum is put in parentheses, and the cast to a keyword may have a sign behind it. -/
theorem casts_recover_read_convertedSum :
    (∀ node ∈ convertedSum.nodes,
      ∀ c ∈ madeCast? .initial (SpellingStyle.spell ⟨true, false⟩) node.2,
        c.isMisread = false) ∧
      ∀ node ∈ (convertedSum.recover .initial (SpellingStyle.spell ⟨true, false⟩)).nodes,
        ∀ c ∈ node.2.form.cast?, c.isMisread = false :=
  have h : ∀ node ∈ convertedSum.nodes,
      ∀ c ∈ madeCast? .initial (SpellingStyle.spell ⟨true, false⟩) node.2,
        c.isMisread = false := by decide +kernel
  ⟨h, casts_recover_read h⟩

/-- `op_Explicit(op_UnaryNegation(a))`. -/
def convertedNegation : Expr :=
  let type : ResolvedType := .named "N" "C" []
  .staticCall ⟨"op_Explicit", type, true, [], type, []⟩
    [.staticCall ⟨"op_UnaryNegation", type, true, [], type, []⟩ [.ofForm (.identifier "a")]]

/-- A conversion of a negation is printed as a difference. -/
theorem convertedNegation_misread :
    (∀ node ∈ (Tree.expr convertedNegation).nodes, node.2.form.cast?.isNone = true) ∧
      (convertedNegation.recover .initial (SpellingStyle.spell ⟨true, false⟩)).text = "(C)-a" ∧
      ¬ ∀ node ∈ ((Tree.expr convertedNegation).recover .initial
          (SpellingStyle.spell ⟨true, false⟩)).nodes,
        ∀ c ∈ node.2.form.cast?, c.isMisread = false := by
  decide +kernel

end Tree

end OperatorRecovery
