import OperatorRecovery.Surgery
import OperatorRecovery.Proofs.Weights

/-!
Places in a tree. A place holds a part and can be filled with another; a path leads to the place
that its indices pick in turn, and filling that place gives the whole tree again. Places are listed
form by form, as the parts are, and the two lists agree. Filling a place changes what is found there
and behind it and nothing else: it can be undone, a second filling makes the first one forgotten,
and the nodes that the path goes through keep all that is their own.
-/

namespace OperatorRecovery

/-- A part in its role, and the whole with something else in the part's place. -/
structure Place (ε τ : Type) where
  role : Role
  found : ε
  fill : ε → τ

/-- The same place in what the whole is part of. -/
def Place.inside (outer : τ → υ) (place : Place ε τ) : Place ε υ :=
  ⟨place.role, place.found, fun e => outer (place.fill e)⟩

namespace Form

def listPlaces (role : Role) : List ε → List (Place ε (List ε))
  | [] => []
  | e :: rest => ⟨role, e, (· :: rest)⟩ :: (listPlaces role rest).map (.inside (e :: ·))

/-- Texts hold no place. -/
def piecePlaces : List (Piece ε) → List (Place ε (List (Piece ε)))
  | [] => []
  | .text s :: rest => (piecePlaces rest).map (.inside (.text s :: ·))
  | .interpolation e format :: rest =>
    ⟨.expression, e, (.interpolation · format :: rest)⟩ ::
      (piecePlaces rest).map (.inside (.interpolation e format :: ·))

/-- The places of a form, in source order. -/
def places : Form ε → List (Place ε (Form ε))
  | .hole | .identifier _ | .literal _ | .typeReference _ | .typeOf _ => []
  | .refType e => [⟨.expression, e, .refType⟩]
  | .parenthesized e => [⟨.expression, e, .parenthesized⟩]
  | .directed direction e => [⟨.expression, e, .directed direction⟩]
  | .named name e => [⟨.expression, e, .named name⟩]
  | .cast type e => [⟨.expression, e, .cast type⟩]
  | .member e name typeArguments => [⟨.expression, e, (.member · name typeArguments)⟩]
  | .unary op e => [⟨.expression, e, .unary op⟩]
  | .call target arguments =>
    ⟨.target, target, (.call · arguments)⟩ ::
      (listPlaces .argument arguments).map (.inside (.call target))
  | .creation type arguments => (listPlaces .argument arguments).map (.inside (.creation type))
  | .binary op left right =>
    [⟨.expression, left, (.binary op · right)⟩, ⟨.expression, right, .binary op left⟩]
  | .interpolated pieces => (piecePlaces pieces).map (.inside .interpolated)
  | .conditional condition whenTrue whenFalse =>
    [⟨.condition, condition, (.conditional · whenTrue whenFalse)⟩,
      ⟨.expression, whenTrue, (.conditional condition · whenFalse)⟩,
      ⟨.expression, whenFalse, .conditional condition whenTrue⟩]

section Slots

theorem mapPieces_mapPieces (g : Nat → ε → δ) (k : Nat → δ → γ) (i : Nat)
    (pieces : List (Piece ε)) :
    mapPieces k i (mapPieces g i pieces) = mapPieces (fun i e => k i (g i e)) i pieces := by
  induction pieces generalizing i with
  | nil => rfl
  | cons piece rest ih => cases piece <;> simp [mapPieces, ih]

theorem mapSlots_mapSlots (g : Nat → Role → ε → δ) (k : Nat → Role → δ → γ) (form : Form ε) :
    (form.mapSlots g).mapSlots k = form.mapSlots fun i role e => k i role (g i role e) := by
  cases form <;> simp [mapSlots, mapPieces_mapPieces, Function.comp_def]

theorem shape_mapSlots (g : Nat → Role → ε → δ) (form : Form ε) :
    (form.mapSlots g).shape = form.shape := by
  have hshape {ε : Type} (form : Form ε) : form.shape = form.mapSlots fun _ _ _ => () :=
    map_eq_mapRoles _ form
  rw [hshape, hshape, mapSlots_mapSlots]

theorem mapPieces_congr_index {g k : Nat → ε → δ} {i : Nat} {pieces : List (Piece ε)}
    (h : ∀ j e, (pieces.filterMap Piece.slot?)[j]? = some e → g (i + j) e = k (i + j) e) :
    mapPieces g i pieces = mapPieces k i pieces := by
  induction pieces generalizing i with
  | nil => rfl
  | cons piece rest ih =>
    cases piece with
    | text s => rw [mapPieces, mapPieces, ih h]
    | interpolation e format =>
      have hrest : mapPieces g (i + 1) rest = mapPieces k (i + 1) rest := by
        refine ih fun j e' he' => ?_
        rw [Nat.add_right_comm]
        exact h (j + 1) e' he'
      rw [mapPieces, mapPieces, hrest, show g i e = k i e from h 0 e rfl]

theorem mapIdx_congr_index {g k : Nat → ε → δ} {es : List ε}
    (h : ∀ (j : Nat) e, es[j]? = some e → g j e = k j e) : es.mapIdx g = es.mapIdx k := by
  apply List.ext_getElem?
  intro j
  rw [List.getElem?_mapIdx, List.getElem?_mapIdx]
  exact Option.map_congr fun e he => h j e he

theorem mapPieces_id (i : Nat) (pieces : List (Piece ε)) :
    mapPieces (fun _ e => e) i pieces = pieces := by
  induction pieces generalizing i with
  | nil => rfl
  | cons piece rest ih => cases piece <;> simp [mapPieces, ih]

/-- A form is rebuilt from its parts, each at its index. -/
theorem mapSlots_congr {g k : Nat → Role → ε → δ} {form : Form ε}
    (h : ∀ (i : Nat) slot, form.slots[i]? = some slot → g i slot.1 slot.2 = k i slot.1 slot.2) :
    form.mapSlots g = form.mapSlots k := by
  cases form with
  | call target arguments =>
    have htarget := h 0 (.target, target) rfl
    have harguments : ∀ (j : Nat) e, arguments[j]? = some e →
        g (j + 1) .argument e = k (j + 1) .argument e := by
      intro j e he
      refine h (j + 1) (.argument, e) ?_
      simp [slots, he]
    rw [mapSlots, mapSlots, htarget, mapIdx_congr_index harguments]
  | creation type arguments =>
    have harguments : ∀ (j : Nat) e, arguments[j]? = some e →
        g j .argument e = k j .argument e := by
      intro j e he
      refine h j (.argument, e) ?_
      simp [slots, he]
    rw [mapSlots, mapSlots, mapIdx_congr_index harguments]
  | interpolated pieces =>
    have hpieces : ∀ j e, (pieces.filterMap Piece.slot?)[j]? = some e →
        g (0 + j) .expression e = k (0 + j) .expression e := by
      intro j e he
      rw [Nat.zero_add]
      refine h j (.expression, e) ?_
      simp [slots, he]
    exact congrArg Form.interpolated (mapPieces_congr_index hpieces)
  | binary op left right =>
    rw [mapSlots, mapSlots, h 0 (.expression, left) rfl, h 1 (.expression, right) rfl]
  | conditional condition whenTrue whenFalse =>
    rw [mapSlots, mapSlots, h 0 (.condition, condition) rfl, h 1 (.expression, whenTrue) rfl,
      h 2 (.expression, whenFalse) rfl]
  | _ => first | rfl | simp only [mapSlots, h 0 (.expression, _) rfl]

theorem mapSlots_eq_self {g : Nat → Role → ε → ε} {form : Form ε}
    (h : ∀ (i : Nat) slot, form.slots[i]? = some slot → g i slot.1 slot.2 = slot.2) :
    form.mapSlots g = form :=
  (mapSlots_congr h).trans (mapRoles_id form)

end Slots

section Places

variable (role : Role)

theorem getElem?_listPlaces (es : List ε) (i : Nat) :
    (listPlaces role es)[i]? = es[i]?.map fun e => ⟨role, e, fun r => es.set i r⟩ := by
  induction es generalizing i with
  | nil => rfl
  | cons e rest ih =>
    cases i with
    | zero => rfl
    | succ i => simp [listPlaces, ih, Place.inside, Function.comp_def]

theorem mapIdx_if_eq_set (es : List ε) (i : Nat) (r : ε) :
    (es.mapIdx fun j e => if j = i then r else e) = es.set i r := by
  apply List.ext_getElem?
  intro j
  rw [List.getElem?_mapIdx, List.getElem?_set]
  by_cases hj : j = i
  · subst hj
    by_cases hlength : j < es.length <;> simp [hlength]
  · simp [hj, Ne.symm hj]

theorem getElem?_piecePlaces (pieces : List (Piece ε)) (i k : Nat) :
    (piecePlaces pieces)[i]? = (pieces.filterMap Piece.slot?)[i]?.map fun e =>
      ⟨.expression, e, fun r => mapPieces (fun j e => if j = k + i then r else e) k pieces⟩ := by
  induction pieces generalizing i k with
  | nil => rfl
  | cons piece rest ih =>
    cases piece with
    | text s =>
      rw [piecePlaces, List.getElem?_map, ih i k]
      simp [List.filterMap_cons, Piece.slot?, mapPieces, Place.inside, Function.comp_def]
    | interpolation e format =>
      cases i with
      | zero =>
        have hrest (r : ε) : mapPieces (fun j e => if j = k then r else e) (k + 1) rest = rest := by
          refine (mapPieces_congr_index fun j e _ => ?_).trans (mapPieces_id (k + 1) rest)
          rw [if_neg (by omega)]
        simp [piecePlaces, Piece.slot?, mapPieces, hrest]
      | succ i =>
        have hindex (j : Nat) : j = k + 1 + i ↔ j = k + (i + 1) := by omega
        rw [piecePlaces, List.getElem?_cons_succ, List.getElem?_map, ih i (k + 1)]
        simp [Piece.slot?, mapPieces, Place.inside, Function.comp_def, hindex]

/-- The places are the slots in turn, and to fill one is to replace the part at its index. -/
theorem getElem?_places (form : Form ε) (i : Nat) :
    form.places[i]? = form.slots[i]?.map fun slot =>
      ⟨slot.1, slot.2, fun r => form.mapSlots fun j _ e => if j = i then r else e⟩ := by
  cases form with
  | call target arguments =>
    cases i with
    | zero => simp [places, slots, mapSlots, mapIdx_const]
    | succ i =>
      simp [places, slots, mapSlots, getElem?_listPlaces, mapIdx_if_eq_set, Place.inside,
        Function.comp_def]
  | creation type arguments =>
    simp [places, slots, mapSlots, getElem?_listPlaces, mapIdx_if_eq_set, Place.inside,
      Function.comp_def]
  | interpolated pieces =>
    simp [places, slots, mapSlots, getElem?_piecePlaces pieces i 0, Place.inside,
      Function.comp_def]
  | binary op left right => rcases i with _ | _ | i <;> simp [places, slots, mapSlots]
  | conditional => rcases i with _ | _ | _ | i <;> simp [places, slots, mapSlots]
  | _ => rcases i with _ | i <;> simp [places, slots, mapSlots]

end Places

end Form

namespace Expr

/-- The expression that a path leads to, in its role, from an expression in a role. -/
def descendantIn? : Path → Role → Expr → Option (Role × Expr)
  | [], role, e => some (role, e)
  | i :: path, _, e => (e.form.slots[i]?).bind fun slot => descendantIn? path slot.1 slot.2

/-- The place that a path leads to. -/
def place? : Path → Role → Expr → Option (Place Expr Expr)
  | [], role, e => some ⟨role, e, id⟩
  | i :: path, _, e => do
    let outer ← e.form.places[i]?
    let inner ← place? path outer.role outer.found
    return inner.inside fun part => { e with form := outer.fill part }

section Parts

variable {e part : Expr} {i : Nat} {g : Expr → Expr}

theorem slots_modifyChild (i : Nat) (g : Expr → Expr) (e : Expr) :
    (modifyChild i g e).form.slots = e.form.slots.modify i (.map id g) := by
  simp only [modifyChild, Form.slots_mapSlots]
  apply List.ext_getElem?
  intro j
  rw [List.getElem?_mapIdx, List.getElem?_modify]
  by_cases hj : i = j <;> simp [hj, Prod.map, eq_comm]

theorem child?_eq_slots (e : Expr) (i : Nat) : e.child? i = e.form.slots[i]?.map (·.2) :=
  List.getElem?_map

theorem parts_modifyChild (i : Nat) (g : Expr → Expr) (e : Expr) :
    (modifyChild i g e).parts = e.parts.modify i g := by
  apply List.ext_getElem?
  intro j
  rw [parts, Form.parts, slots_modifyChild, List.getElem?_map, List.getElem?_modify,
    List.getElem?_modify, parts, Form.parts, List.getElem?_map]
  cases e.form.slots[j]? with
  | none => rfl
  | some slot => by_cases hj : i = j <;> simp [hj]

theorem child?_modifyChild (h : e.child? i = some part) :
    (modifyChild i g e).child? i = some (g part) := by
  rw [child?, parts_modifyChild, List.getElem?_modify_eq]
  exact congrArg (Option.map g) h

theorem modifyChild_eq_self (h : e.child? i = some part) (hg : g part = part) :
    modifyChild i g e = e := by
  have hform : (e.form.mapSlots fun j _ part => if j = i then g part else part) = e.form := by
    apply Form.mapSlots_eq_self
    intro j slot hslot
    split
    next hj =>
      subst hj
      rw [child?_eq_slots, hslot] at h
      cases h
      exact hg
    next => rfl
  obtain ⟨form, annotations⟩ := e
  exact congrArg (Expr.mk · annotations) hform

theorem modifyChild_modifyChild (k : Expr → Expr) :
    modifyChild i k (modifyChild i g e) = modifyChild i (fun part => k (g part)) e := by
  simp only [modifyChild, Form.mapSlots_mapSlots]
  congr 2
  funext j role part
  split <;> rfl

end Parts

section Replacement

variable {e found : Expr} {p q : Path}

theorem descendant?_cons_eq_some_iff {i : Nat} :
    e.descendant? (i :: p) = some found ↔
      ∃ part, e.child? i = some part ∧ part.descendant? p = some found :=
  Option.bind_eq_some_iff

theorem replaceAt_cons (i : Nat) (p : Path) (e r : Expr) :
    e.replaceAt (i :: p) r = modifyChild i (·.replaceAt p r) e := rfl

theorem descendant?_eq_map_descendantIn? (p : Path) (role : Role) (e : Expr) :
    e.descendant? p = (e.descendantIn? p role).map (·.2) := by
  induction p generalizing role e with
  | nil => rfl
  | cons i p ih =>
    rw [descendant?, descendantIn?, child?_eq_slots]
    cases e.form.slots[i]? with
    | none => rfl
    | some slot => exact ih slot.1 slot.2

/-- What was put in a place is found there. -/
theorem descendant?_replaceAt (h : e.descendant? p = some found) (r : Expr) :
    (e.replaceAt p r).descendant? p = some r := by
  induction p generalizing e with
  | nil => rfl
  | cons i p ih =>
    obtain ⟨part, hpart, hfound⟩ := descendant?_cons_eq_some_iff.mp h
    rw [replaceAt_cons, descendant?, child?_modifyChild hpart]
    exact ih hfound

/-- A second filling makes the first one forgotten. -/
theorem replaceAt_replaceAt (e : Expr) (p : Path) (r r' : Expr) :
    (e.replaceAt p r).replaceAt p r' = e.replaceAt p r' := by
  induction p generalizing e with
  | nil => rfl
  | cons i p ih =>
    rw [replaceAt_cons, replaceAt_cons, modifyChild_modifyChild]
    simp only [ih]
    rfl

theorem replaceAt_eq_self (h : e.descendant? p = some found) : e.replaceAt p found = e := by
  induction p generalizing e with
  | nil => exact (Option.some.inj h).symm
  | cons i p ih =>
    obtain ⟨part, hpart, hfound⟩ := descendant?_cons_eq_some_iff.mp h
    exact modifyChild_eq_self hpart (ih hfound)

/-- Off the path everything stays where it is, in its role. -/
theorem descendantIn?_replaceAt_of_apart (hpq : ¬ p <+: q) (hqp : ¬ q <+: p) (r : Expr)
    (role : Role) : (e.replaceAt p r).descendantIn? q role = e.descendantIn? q role := by
  induction p generalizing e q role with
  | nil => exact absurd List.nil_prefix hpq
  | cons i p ih =>
    cases q with
    | nil => exact absurd List.nil_prefix hqp
    | cons j q =>
      rw [replaceAt_cons, descendantIn?, descendantIn?, slots_modifyChild, List.getElem?_modify]
      by_cases hij : i = j
      · subst hij
        have hpq' : ¬ p <+: q := fun h => hpq (List.cons_prefix_cons.mpr ⟨rfl, h⟩)
        have hqp' : ¬ q <+: p := fun h => hqp (List.cons_prefix_cons.mpr ⟨rfl, h⟩)
        cases e.form.slots[i]? with
        | none => rfl
        | some slot => simpa using ih hpq' hqp' slot.1
      · cases e.form.slots[j]? <;> simp [hij]

/-- The nodes that a path goes through keep their annotations and their shape. -/
theorem exists_onTheWay (h : e.descendant? p = some found) (hqp : q <+: p) (hne : q ≠ p)
    (r : Expr) : ∃ before after, e.descendant? q = some before ∧
      (e.replaceAt p r).descendant? q = some after ∧ after.annotations = before.annotations ∧
      after.form.shape = before.form.shape := by
  induction p generalizing e q with
  | nil => exact absurd (List.prefix_nil.mp hqp) hne
  | cons i p ih =>
    cases q with
    | nil =>
      refine ⟨e, _, rfl, rfl, rfl, ?_⟩
      exact Form.shape_mapSlots (fun j _ part => if j = i then part.replaceAt p r else part) e.form
    | cons j q =>
      obtain ⟨rfl, hqp'⟩ := List.cons_prefix_cons.mp hqp
      obtain ⟨part, hpart, hfound⟩ := descendant?_cons_eq_some_iff.mp h
      obtain ⟨before, after, hbefore, hafter, hkept⟩ :=
        ih hfound hqp' fun heq => hne (congrArg (j :: ·) heq)
      refine ⟨before, after, ?_, ?_, hkept⟩
      · exact descendant?_cons_eq_some_iff.mpr ⟨part, hpart, hbefore⟩
      · exact descendant?_cons_eq_some_iff.mpr ⟨_, child?_modifyChild hpart, hafter⟩

theorem total_map_modify {α : Type} (count : α → Nat) (g : α → α) {l : List α} {i : Nat} {a : α}
    (h : l[i]? = some a) :
    total ((l.modify i g).map count) + count a = total (l.map count) + count (g a) := by
  induction l generalizing i with
  | nil => cases h
  | cons b l ih =>
    cases i with
    | zero =>
      cases h
      simp only [List.modify_zero_cons, List.map_cons, total]
      omega
    | succ i =>
      have hrest := ih h
      simp only [List.modify_succ_cons, List.map_cons, total]
      omega

theorem nodeCount_replaceAt (h : e.descendant? p = some found) (r : Expr) :
    (e.replaceAt p r).nodeCount + found.nodeCount = e.nodeCount + r.nodeCount := by
  induction p generalizing e with
  | nil =>
    cases h
    exact Nat.add_comm _ _
  | cons i p ih =>
    obtain ⟨part, hpart, hfound⟩ := descendant?_cons_eq_some_iff.mp h
    have hcount (e : Expr) : e.nodeCount = 1 + total (e.parts.map nodeCount) := by
      obtain ⟨form, annotations⟩ := e
      exact nodeCount_mk form annotations
    have htotal := total_map_modify nodeCount (·.replaceAt p r) hpart
    have hpartCount := ih hfound
    rw [replaceAt_cons, hcount (modifyChild i _ e), hcount e, parts_modifyChild]
    omega

end Replacement

section Surgery

theorem replaceAt_cons_of_slot {e : Expr} {i : Nat} {slot : Role × Expr}
    (h : e.form.slots[i]? = some slot) (p : Path) (r : Expr) :
    e.replaceAt (i :: p) r =
      { e with form := e.form.mapSlots fun j _ part =>
          if j = i then slot.2.replaceAt p r else part } := by
  have hform : (e.form.mapSlots fun j _ part => if j = i then part.replaceAt p r else part) =
      e.form.mapSlots fun j _ part => if j = i then slot.2.replaceAt p r else part := by
    apply Form.mapSlots_congr
    intro j slot' hslot'
    split
    next hj =>
      subst hj
      rw [h] at hslot'
      rw [Option.some.inj hslot']
    next => rfl
  exact congrArg (Expr.mk · e.annotations) hform

/-- The place at the end of a path is filled by replacing what is at the path. -/
theorem place?_eq (p : Path) (role : Role) (e : Expr) :
    e.place? p role = (e.descendantIn? p role).map fun slot => ⟨slot.1, slot.2, e.replaceAt p⟩ := by
  induction p generalizing role e with
  | nil => rfl
  | cons i p ih =>
    rw [place?, descendantIn?, Form.getElem?_places]
    cases hslot : e.form.slots[i]? with
    | none => rfl
    | some slot =>
      have hfill : e.replaceAt (i :: p) = fun r =>
          { e with form := e.form.mapSlots fun j _ part =>
              if j = i then slot.2.replaceAt p r else part } :=
        funext fun r => replaceAt_cons_of_slot hslot p r
      simp only [Option.map_some, Option.bind_eq_bind, Option.bind_some, ih, hfill]
      cases descendantIn? p slot.1 slot.2 <;> rfl

/-- The place that a path leads to holds what the path leads to, in its role, and to fill it is to
replace that. The replacement is then found there, and replacing it by what was there before, or by
anything else, gives what replacing that at once gives. Whatever lies off the path stays in its
place and role, the nodes above keep their annotations and their shape, and the number of nodes
changes by what was put in and taken out. -/
theorem surgery_lawful (e : Expr) (p : Path) (role : Role) :
    (e.place? p role).map (fun place => (place.role, place.found)) = e.descendantIn? p role ∧
    (e.place? p role).map (·.found) = e.descendant? p ∧
    ∀ r, (e.place? p role).map (fun place => (place.found, place.fill r)) = e.replace? p r ∧
      ∀ found, e.descendant? p = some found →
        ∃ after rest, e.replace? p r = some (found, after) ∧ after.descendant? p = some r ∧
          after.replace? p found = some (r, e) ∧
          e.detach? p = some (found, rest) ∧ rest.descendant? p = some hole ∧
          rest.replace? p found = some (hole, e) ∧
          (∀ r', after.replace? p r' = (e.replace? p r').map fun replaced => (r, replaced.2)) ∧
          (∀ q, ¬ p <+: q → ¬ q <+: p → after.descendantIn? q role = e.descendantIn? q role) ∧
          (∀ q, q <+: p → q ≠ p → ∃ node node', e.descendant? q = some node ∧
            after.descendant? q = some node' ∧ node'.annotations = node.annotations ∧
            node'.form.shape = node.form.shape) ∧
          after.nodeCount + found.nodeCount = e.nodeCount + r.nodeCount := by
  have hfound : (e.place? p role).map (·.found) = e.descendant? p := by
    rw [place?_eq, descendant?_eq_map_descendantIn? p role, Option.map_map]
    rfl
  refine ⟨?_, hfound, fun r => ⟨?_, ?_⟩⟩
  · rw [place?_eq, Option.map_map]
    cases e.descendantIn? p role <;> rfl
  · rw [place?_eq, replace?, descendant?_eq_map_descendantIn? p role, Option.map_map,
      Option.map_map]
    rfl
  · intro found h
    have hafter := descendant?_replaceAt h r
    have hrest := descendant?_replaceAt h hole
    refine ⟨e.replaceAt p r, e.detachAt p, ?_, hafter, ?_, ?_, hrest, ?_, ?_, ?_, ?_, ?_⟩
    · rw [replace?, h, Option.map_some]
    · rw [replace?, hafter, Option.map_some, replaceAt_replaceAt, replaceAt_eq_self h]
    · rw [detach?, h, Option.map_some]
    · rw [replace?, detachAt, hrest, Option.map_some, replaceAt_replaceAt, replaceAt_eq_self h]
    · intro r'
      rw [replace?, replace?, hafter, h, Option.map_some, Option.map_some, Option.map_some,
        replaceAt_replaceAt]
    · intro q hpq hqp
      exact descendantIn?_replaceAt_of_apart hpq hqp r role
    · intro q hqp hne
      exact exists_onTheWay h hqp hne r
    · exact nodeCount_replaceAt h r

end Surgery

end Expr

end OperatorRecovery
