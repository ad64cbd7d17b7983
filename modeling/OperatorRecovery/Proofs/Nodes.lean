import OperatorRecovery.Pass

/-!
The nodes of a tree. What the pass is run on is an expression or a statement;
both own expressions in roles, and every expression inside one of these is a
node in the role in which it stands. A property of all nodes of an expression
is a property of the outermost one and of all nodes of the parts.
-/

namespace OperatorRecovery

namespace Form

theorem mapIdx_const (g : ε → δ) (es : List ε) : (es.mapIdx fun _ e => g e) = es.map g := by
  rw [List.mapIdx_eq_iff]
  intro i
  rw [List.getElem?_map]

theorem mapPieces_const (g : ε → δ) (i : Nat) (pieces : List (Piece ε)) :
    mapPieces (fun _ => g) i pieces = pieces.map (Piece.map g) := by
  induction pieces generalizing i with
  | nil => rfl
  | cons piece rest ih => cases piece <;> simp [mapPieces, Piece.map, ih]

/-- Replaces every part, knowing its role. -/
def mapRoles (g : Role → ε → δ) (form : Form ε) : Form δ := form.mapSlots fun _ => g

theorem slots_mapRoles (g : Role → ε → δ) (form : Form ε) :
    (form.mapRoles g).slots = form.slots.map fun slot => (slot.1, g slot.1 slot.2) := by
  rw [mapRoles, slots_mapSlots]
  exact mapIdx_const (fun slot : Role × ε => (slot.1, g slot.1 slot.2)) form.slots

theorem map_eq_mapRoles (g : ε → δ) (form : Form ε) : form.map g = form.mapRoles fun _ => g := by
  cases form <;> simp [map, mapRoles, mapSlots, mapIdx_const, mapPieces_const]

theorem mapPieces_congr {g k : ε → δ} (pieces : List (Piece ε))
    (h : ∀ e ∈ pieces.filterMap Piece.slot?, g e = k e) :
    pieces.map (Piece.map g) = pieces.map (Piece.map k) := by
  apply List.map_congr_left
  intro piece hpiece
  cases piece with
  | text s => rfl
  | interpolation e format =>
    have he : g e = k e := h e (List.mem_filterMap.mpr ⟨_, hpiece, rfl⟩)
    simp only [Piece.map, he]

/-- A form is rebuilt from its parts, so equal parts give equal forms. -/
theorem mapRoles_congr {g k : Role → ε → δ} (form : Form ε)
    (h : ∀ slot ∈ form.slots, g slot.1 slot.2 = k slot.1 slot.2) :
    form.mapRoles g = form.mapRoles k := by
  cases form with
  | call target arguments =>
    simp only [slots, List.mem_cons, List.mem_map, forall_eq_or_imp, forall_exists_index, and_imp,
      forall_apply_eq_imp_iff₂] at h
    simp only [mapRoles, mapSlots, mapIdx_const, h.1]
    rw [List.map_congr_left h.2]
  | creation type arguments =>
    simp only [slots, List.mem_map, forall_exists_index, and_imp, forall_apply_eq_imp_iff₂] at h
    simp only [mapRoles, mapSlots, mapIdx_const]
    rw [List.map_congr_left h]
  | interpolated pieces =>
    simp only [slots, List.mem_map, forall_exists_index, and_imp, forall_apply_eq_imp_iff₂] at h
    simp only [mapRoles, mapSlots, mapPieces_const]
    rw [mapPieces_congr pieces h]
  | _ => simp_all [slots, mapRoles, mapSlots]

theorem mapRoles_id (form : Form ε) : (form.mapRoles fun _ e => e) = form := by
  cases form with
  | interpolated pieces =>
    simp only [mapRoles, mapSlots, mapPieces_const]
    congr 1
    refine Eq.trans (List.map_congr_left fun piece _ => ?_) (List.map_id pieces)
    cases piece <;> rfl
  | _ => simp [mapRoles, mapSlots, mapIdx_const]

theorem mapRoles_eq_self {g : Role → ε → ε} (form : Form ε)
    (h : ∀ slot ∈ form.slots, g slot.1 slot.2 = slot.2) : form.mapRoles g = form :=
  (mapRoles_congr form h).trans (mapRoles_id form)

theorem mapRoles_map (g : ε → δ) (k : Role → δ → γ) (form : Form ε) :
    (form.map g).mapRoles k = form.mapRoles fun role e => k role (g e) :=
  mapSlots_map g _ form

theorem map_mapRoles (g : Role → ε → δ) (k : δ → γ) (form : Form ε) :
    (form.mapRoles g).map k = form.mapRoles fun role e => k (g role e) := by
  cases form with
  | interpolated pieces =>
    simp only [mapRoles, mapSlots, map, mapPieces_const, List.map_map]
    congr 1
    apply List.map_congr_left
    intro piece _
    cases piece <;> rfl
  | _ => simp [mapRoles, mapSlots, map, mapIdx_const]

theorem map_map (g : ε → δ) (k : δ → γ) (form : Form ε) :
    (form.map g).map k = form.map fun e => k (g e) := by
  rw [map_eq_mapRoles k, mapRoles_map, map_eq_mapRoles]

theorem map_congr {g k : ε → δ} (form : Form ε) (h : ∀ e ∈ form.parts, g e = k e) :
    form.map g = form.map k := by
  rw [map_eq_mapRoles, map_eq_mapRoles]
  exact mapRoles_congr form fun slot hslot => h _ (List.mem_map.mpr ⟨slot, hslot, rfl⟩)

theorem map_eq_self {g : ε → ε} (form : Form ε) (h : ∀ e ∈ form.parts, g e = e) :
    form.map g = form := by
  rw [map_congr form h, map_eq_mapRoles, mapRoles_id]

theorem mem_parts_of_mem_slots {form : Form ε} {slot : Role × ε} (h : slot ∈ form.slots) :
    slot.2 ∈ form.parts := List.mem_map.mpr ⟨slot, h, rfl⟩

theorem mem_slots_of_mem_arguments {form : Form ε} {argument : ε} (h : argument ∈ form.arguments) :
    (Role.argument, argument) ∈ form.slots := by
  cases form with
  | call target arguments => exact List.mem_cons_of_mem _ (List.mem_map_of_mem h)
  | creation type arguments => exact List.mem_map_of_mem h
  | _ => cases h

end Form

namespace Expr

section Para

variable (read : Form (Expr × α) → Annotations → α)

/-- A fold that is shown every part beside what the part reads as. -/
def para (e : Expr) : α :=
  (e.fold fun form annotations => (⟨form.map (·.1), annotations⟩, read form annotations)).2

/-- The equation that determines such a fold. -/
theorem para_mk (form : Form Expr) (annotations : Annotations) :
    para read ⟨form, annotations⟩ = read (form.map fun e => (e, para read e)) annotations := by
  have hself : ∀ e : Expr, (e.fold fun form annotations =>
      ((⟨form.map (·.1), annotations⟩ : Expr), read form annotations)).1 = e := by
    intro e
    induction e using induction_on_parts with
    | step e ih =>
      obtain ⟨form, annotations⟩ := e
      rw [fold_mk]
      simp only [Form.map_map]
      rw [Form.map_eq_self form ih]
  have hpair : form.map (fold fun form annotations =>
      ((⟨form.map (·.1), annotations⟩ : Expr), read form annotations)) =
      form.map fun e => (e, para read e) :=
    Form.map_congr form fun e _ => Prod.ext (hself e) rfl
  rw [para, fold_mk, hpair]

end Para

/-- The nodes of an expression from its parts beside the nodes of these. -/
def gatherNodes (form : Form (Expr × (Role → List (Role × Expr)))) (annotations : Annotations)
    (role : Role) : List (Role × Expr) :=
  (role, ⟨form.map (·.1), annotations⟩) :: form.slots.flatMap fun slot => slot.2.2 slot.1

/-- All nodes of an expression in a role, from the outside in and in source order. -/
def nodes (role : Role) (e : Expr) : List (Role × Expr) := e.para gatherNodes role

theorem nodes_mk (role : Role) (form : Form Expr) (annotations : Annotations) :
    nodes role ⟨form, annotations⟩ =
      (role, ⟨form, annotations⟩) :: form.slots.flatMap fun slot => slot.2.nodes slot.1 := by
  rw [nodes, para_mk]
  simp only [gatherNodes, Form.map_map, Form.slots_map, List.flatMap_map]
  rw [Form.map_eq_self form fun _ _ => rfl]
  rfl

/-- A property of every node of an expression in a role. -/
def Every (Q : Role → Expr → Prop) (role : Role) (e : Expr) : Prop :=
  ∀ node ∈ e.nodes role, Q node.1 node.2

variable {Q : Role → Expr → Prop}

theorem every_mk (role : Role) (form : Form Expr) (annotations : Annotations) :
    Every Q role ⟨form, annotations⟩ ↔
      Q role ⟨form, annotations⟩ ∧ ∀ slot ∈ form.slots, Every Q slot.1 slot.2 := by
  simp only [Every, nodes_mk, List.forall_mem_cons, List.mem_flatMap]
  constructor
  · intro h
    obtain ⟨hself, hparts⟩ := h
    exact ⟨hself, fun slot hslot node hnode => hparts node ⟨slot, hslot, hnode⟩⟩
  · intro h
    obtain ⟨hself, hparts⟩ := h
    exact ⟨hself, fun node ⟨slot, hslot, hnode⟩ => hparts slot hslot node hnode⟩

theorem every_iff (role : Role) (e : Expr) :
    Every Q role e ↔ Q role e ∧ ∀ slot ∈ e.form.slots, Every Q slot.1 slot.2 := by
  obtain ⟨form, annotations⟩ := e
  exact every_mk role form annotations

theorem Every.self {role : Role} {e : Expr} (h : Every Q role e) : Q role e :=
  ((every_iff role e).mp h).1

theorem Every.slots {role : Role} {e : Expr} (h : Every Q role e) :
    ∀ slot ∈ e.form.slots, Every Q slot.1 slot.2 := ((every_iff role e).mp h).2

theorem every_arguments {form : Form Expr} (h : ∀ slot ∈ form.slots, Every Q slot.1 slot.2) :
    ∀ argument ∈ form.arguments, Every Q .argument argument :=
  fun argument hargument => h (.argument, argument) (Form.mem_slots_of_mem_arguments hargument)

/-- The parts stand in the same roles whatever the role and the annotations outside. -/
theorem Every.move {role role' : Role} {e e' : Expr} (h : Every Q role e)
    (hform : e'.form = e.form) (hself : Q role' e') : Every Q role' e' :=
  (every_iff role' e').mpr ⟨hself, by rw [hform]; exact h.slots⟩

/-- An argument may become an operand where the role does not matter. -/
theorem Every.operand {role : Role} {argument : Expr} (h : Every Q role argument)
    (hmove : ∀ {role e}, Q role e → Q .expression e) :
    Every Q .expression (OperatorCall.operand argument) := by
  unfold OperatorCall.operand
  split
  · rename_i inner hform
    have hslot := h.slots (.expression, inner)
    rw [hform] at hslot
    exact hslot (List.mem_singleton.mpr rfl)
  · exact h.move rfl (hmove h.self)

/-- A call of a static method on its type. -/
def staticCall (method : Method) (arguments : List Expr) : Expr :=
  ⟨.call (.ofForm (.member (.ofForm (.typeReference (.ofName method.declaringType.fullName)))
    method.name [])) arguments, [.symbol (.method method)]⟩

end Expr

namespace Stmt

mutual

/-- The expressions that a statement or one inside it owns, in source order. -/
def allExprs : Stmt → List (Role × Expr)
  | .expr e => [(.expression, e)]
  | .declaration _ _ value => value.toList.map (Role.expression, ·)
  | .ifElse condition thenBody none => (.condition, condition) :: allExprsList thenBody
  | .ifElse condition thenBody (some elseBody) =>
    (.condition, condition) :: (allExprsList thenBody ++ allExprsList elseBody)
  | .while condition body => (.condition, condition) :: allExprsList body
  | .return value => value.toList.map (Role.expression, ·)
  | .block body => allExprsList body

def allExprsList : List Stmt → List (Role × Expr)
  | [] => []
  | s :: rest => allExprs s ++ allExprsList rest

end

section Maps

variable (g : Role → Expr → Expr)

mutual

theorem allExprs_mapExprs (s : Stmt) :
    (s.mapExprs g).allExprs = s.allExprs.map fun slot => (slot.1, g slot.1 slot.2) := by
  cases s with
  | ifElse condition thenBody elseBody =>
    cases elseBody with
    | none => simp [mapExprs, allExprs, allExprsList_mapExprsList thenBody]
    | some elseBody =>
      simp [mapExprs, allExprs, allExprsList_mapExprsList thenBody,
        allExprsList_mapExprsList elseBody]
  | declaration type name value => cases value <;> rfl
  | «return» value => cases value <;> rfl
  | expr e => rfl
  | «while» condition body => simp [mapExprs, allExprs, allExprsList_mapExprsList body]
  | block body => simp [mapExprs, allExprs, allExprsList_mapExprsList body]

theorem allExprsList_mapExprsList (body : List Stmt) :
    allExprsList (mapExprsList g body) =
      (allExprsList body).map fun slot => (slot.1, g slot.1 slot.2) := by
  cases body with
  | nil => rfl
  | cons s rest =>
    simp [mapExprsList, allExprsList, allExprs_mapExprs s, allExprsList_mapExprsList rest]

end

mutual

/-- A map over expressions changes a statement exactly where it changes one of them. -/
theorem mapExprs_eq_self_iff (s : Stmt) :
    s.mapExprs g = s ↔ ∀ slot ∈ s.allExprs, g slot.1 slot.2 = slot.2 := by
  cases s with
  | ifElse condition thenBody elseBody =>
    cases elseBody with
    | none => simp [mapExprs, allExprs, mapExprsList_eq_self_iff thenBody]
    | some elseBody =>
      simp [mapExprs, allExprs, mapExprsList_eq_self_iff thenBody,
        mapExprsList_eq_self_iff elseBody, or_imp, forall_and]
  | declaration type name value => cases value <;> simp [mapExprs, allExprs]
  | «return» value => cases value <;> simp [mapExprs, allExprs]
  | expr e => simp [mapExprs, allExprs]
  | «while» condition body => simp [mapExprs, allExprs, mapExprsList_eq_self_iff body]
  | block body => simp [mapExprs, allExprs, mapExprsList_eq_self_iff body]

theorem mapExprsList_eq_self_iff (body : List Stmt) :
    mapExprsList g body = body ↔ ∀ slot ∈ allExprsList body, g slot.1 slot.2 = slot.2 := by
  cases body with
  | nil => simp [mapExprsList, allExprsList]
  | cons s rest =>
    simp [mapExprsList, allExprsList, mapExprs_eq_self_iff s, mapExprsList_eq_self_iff rest,
      or_imp, forall_and]

end

end Maps

end Stmt

/-- What the pass is run on. -/
inductive Tree
  | expr (e : Expr)
  | stmt (s : Stmt)

namespace Tree

/-- The expressions of a tree that stand in no other expression, in their roles. -/
def roots : Tree → List (Role × Expr)
  | .expr e => [(.expression, e)]
  | .stmt s => s.allExprs

def nodes (t : Tree) : List (Role × Expr) := t.roots.flatMap fun root => root.2.nodes root.1

def recover (settings : Settings) (spelling : Spelling) : Tree → Tree
  | .expr e => .expr (e.recover settings spelling)
  | .stmt s => .stmt (s.recover settings spelling)

variable (settings : Settings) (spelling : Spelling)

theorem roots_recover (t : Tree) :
    (t.recover settings spelling).roots =
      t.roots.map fun root => (root.1, root.2.recoverIn settings spelling root.1) := by
  cases t with
  | expr e => rfl
  | stmt s => exact Stmt.allExprs_mapExprs _ s

theorem recover_eq_self_iff (t : Tree) :
    t.recover settings spelling = t ↔
      ∀ root ∈ t.roots, root.2.recoverIn settings spelling root.1 = root.2 := by
  cases t with
  | expr e => simp [recover, roots, Expr.recover]
  | stmt s =>
    simp only [recover, roots, Tree.stmt.injEq]
    exact Stmt.mapExprs_eq_self_iff _ s

theorem forall_nodes_iff (t : Tree) (Q : Role → Expr → Prop) :
    (∀ node ∈ t.nodes, Q node.1 node.2) ↔ ∀ root ∈ t.roots, Expr.Every Q root.1 root.2 := by
  simp only [nodes, List.mem_flatMap, Expr.Every]
  exact ⟨fun h root hroot node hnode => h node ⟨root, hroot, hnode⟩,
    fun h node ⟨root, hroot, hnode⟩ => h root hroot node hnode⟩

end Tree

end OperatorRecovery
