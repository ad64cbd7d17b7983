import OperatorRecovery.Pattern

/-!
Matching over a state. All attempts of a match work on the same path and the same list of captures:
the path grows on the way down and shrinks on the way back, and a capture is recorded as soon as
what it captures has matched. An attempt that fails may have recorded some by then. Alternatives and
sequences of arguments put the list back, and no other pattern does; these two suffice for every
failure to leave no trace. What a success records does not depend on where the match began: it is
what one way for the pattern to match records, each capture with a path from there to a node that
the very pattern that it captures matches.
-/

namespace OperatorRecovery

/-- A capture with a path from where the match began, and the pattern of what it captures. -/
structure Recording where
  name : String
  path : Expr.Path
  inner : Pattern

namespace Recording

/-- The recording for a match that began further out. -/
def under (path : Expr.Path) (r : Recording) : Recording := { r with path := path ++ r.path }

/-- What is captured where the match begins at a path. -/
def capture (path : Expr.Path) (r : Recording) : Capture := ⟨r.name, path ++ r.path⟩

end Recording

namespace Match

/-- Captures what was found from here on. -/
def extend (m : Match) (found : List Recording) : Match :=
  { m with captures := m.captures ++ found.map (Recording.capture m.path) }

def enter (i : Nat) (m : Match) : Match := { m with path := m.path ++ [i] }

def leave (m : Match) : Match := { m with path := m.path.dropLast }

/-- Drops all captures but the first ones. -/
def restore (checkpoint : Nat) (m : Match) : Match :=
  { m with captures := m.captures.take checkpoint }

@[simp] theorem path_extend (m : Match) (found : List Recording) :
    (m.extend found).path = m.path := rfl

@[simp] theorem extend_nil (m : Match) : m.extend [] = m := by simp [extend]

theorem extend_extend (m : Match) (found more : List Recording) :
    (m.extend found).extend more = m.extend (found ++ more) := by simp [extend]

theorem restore_extend (m : Match) (found : List Recording) :
    (m.extend found).restore m.captures.length = m := by simp [restore, extend]

theorem restore_self (m : Match) : m.restore m.captures.length = m := by simp [restore]

@[simp] theorem leave_enter (m : Match) (i : Nat) : (m.enter i).leave = m := by
  simp [leave, enter]

/-- What is recorded behind a part is recorded under its index. -/
theorem leave_extend_enter (m : Match) (i : Nat) (found : List Recording) :
    ((m.enter i).extend found).leave = m.extend (found.map (Recording.under [i])) := by
  simp [leave, extend, enter, Recording.capture, Recording.under, Function.comp_def]

end Match

/-- An attempt to match, which works on the match in progress and says whether it succeeded. -/
abbrev Attempt := StateM Match Bool

namespace Attempt

def perform {α : Type} (trial : StateM Match α) (m : Match) : α × Match := (StateT.run trial m).run

section Performing

variable {α β : Type} (m : Match)

@[simp] theorem perform_pure (a : α) : perform (pure a) m = (a, m) := rfl

@[simp] theorem perform_bind (trial : StateM Match β) (next : β → StateM Match α) :
    perform (trial >>= next) m = perform (next (perform trial m).1) (perform trial m).2 := rfl

@[simp] theorem perform_map (g : β → α) (trial : StateM Match β) :
    perform (g <$> trial) m = (g (perform trial m).1, (perform trial m).2) := rfl

@[simp] theorem perform_get : perform get m = (m, m) := rfl

@[simp] theorem perform_modify (g : Match → Match) : perform (modify g) m = ((), g m) := rfl

end Performing

section Steps

/-- Visits a part and comes back. -/
def descend (e : Expr) (i : Nat) (visit : Expr → Attempt) : Attempt := do
  let some part := e.child? i | return false
  modify (Match.enter i)
  let succeeded ← visit part
  modify Match.leave
  return succeeded

theorem perform_descend {e part : Expr} {i : Nat} (hpart : e.child? i = some part)
    (visit : Expr → Attempt) (m : Match) :
    perform (descend e i visit) m =
      ((perform (visit part) (m.enter i)).1, (perform (visit part) (m.enter i)).2.leave) := by
  unfold descend
  rw [hpart]
  rfl

/-- Records where the attempt stands, once it has succeeded. -/
def recordAfter (name : String) (first : Attempt) : Attempt := do
  if ← first then
    modify (Match.record · name)
    return true
  else return false

/-- Another attempt is made where the first fails, with the captures put back. -/
def orElse (first other : Attempt) : Attempt := do
  let checkpoint := (← get).captures.length
  if ← first then return true
  modify (Match.restore checkpoint)
  other

/-- Another attempt is made where one of two in a row fails, with the captures put back. -/
def bothOrElse (first second other : Attempt) : Attempt := do
  let checkpoint := (← get).captures.length
  if ← first then
    if ← second then return true
  modify (Match.restore checkpoint)
  other

end Steps

end Attempt

namespace Pattern

open Attempt

mutual

def attempt : Pattern → Expr → Attempt
  | .any, _ => return true
  | .capture name inner, e => recordAfter name (attempt inner e)
  | .choice alternatives, e => attemptChoice alternatives e
  | .member name target, e =>
    match e.form with
    | .member _ found [] =>
      if found = name then descend e 0 (attempt target) else return false
    | _ => return false
  | .typeOf, e =>
    match e.form with
    | .typeOf _ => return true
    | _ => return false
  | .refType operand, e =>
    match e.form with
    | .refType _ => descend e 0 (attempt operand)
    | _ => return false
  | .hasLoadToken, e => return Annotations.hasLoadToken e.annotations
  | .loadToken argument, e =>
    match e.form with
    | .call _ arguments =>
      if Annotations.hasLoadToken e.annotations && arguments.length = 1 then
        descend e 1 (attempt argument)
      else return false
    | _ => return false
  | .callOf fullName arguments, e =>
    let resolved := e.method?.any (·.fullName == fullName)
    match e.form with
    | .call _ _ => if resolved then attemptItems arguments e 1 else return false
    | _ => return false
  | .castTo typeNames operand, e =>
    match e.form with
    | .cast type _ =>
      if typeNames.any type.refersTo then descend e 0 (attempt operand) else return false
    | _ => return false

def attemptChoice : List Pattern → Expr → Attempt
  | [], _ => return false
  | p :: rest, e => orElse (attempt p e) (attemptChoice rest e)

def attemptItems : List Item → Expr → Nat → Attempt
  | [], e, i => return e.parts.length ≤ i
  | item :: rest, e, i =>
    match item with
    | .required p =>
      if e.parts.length ≤ i then return false
      else bothOrElse (descend e i (attempt p)) (attemptItems rest e (i + 1)) (return false)
    | .optional p =>
      if e.parts.length ≤ i then attemptItems rest e i
      else
        bothOrElse (descend e i (attempt p)) (attemptItems rest e (i + 1)) (attemptItems rest e i)

end

mutual

/-- The names under which a pattern records, each with the pattern of what is recorded. -/
def captured : Pattern → List (String × Pattern)
  | .any | .typeOf | .hasLoadToken => []
  | .capture name inner => (name, inner) :: inner.captured
  | .choice alternatives => capturedChoice alternatives
  | .member _ inner | .refType inner | .loadToken inner | .castTo _ inner => inner.captured
  | .callOf _ items => capturedItems items

def capturedChoice : List Pattern → List (String × Pattern)
  | [] => []
  | p :: rest => p.captured ++ capturedChoice rest

def capturedItems : List Item → List (String × Pattern)
  | [] => []
  | .required p :: rest | .optional p :: rest => p.captured ++ capturedItems rest

end

mutual

/-- A way for a pattern to match, with what is recorded on it. Any alternative of a choice may be
taken. -/
inductive Records : Pattern → Expr → List Recording → Prop
  | any {e : Expr} : Records .any e []
  | capture {name : String} {inner : Pattern} {e : Expr} {found : List Recording}
    (matched : Records inner e found) :
    Records (.capture name inner) e (found ++ [⟨name, [], inner⟩])
  | choice {alternatives : List Pattern} {p : Pattern} {e : Expr} {found : List Recording}
    (mem : p ∈ alternatives) (matched : Records p e found) :
    Records (.choice alternatives) e found
  | member {name : String} {target : Pattern} {x : Expr} {annotations : Annotations}
    {found : List Recording} (matched : Records target x found) :
    Records (.member name target) ⟨.member x name [], annotations⟩
      (found.map (Recording.under [0]))
  | typeOf {type : TypeSyntax} {annotations : Annotations} :
    Records .typeOf ⟨.typeOf type, annotations⟩ []
  | refType {operand : Pattern} {x : Expr} {annotations : Annotations} {found : List Recording}
    (matched : Records operand x found) :
    Records (.refType operand) ⟨.refType x, annotations⟩ (found.map (Recording.under [0]))
  | hasLoadToken {e : Expr} (loads : Annotations.hasLoadToken e.annotations = true) :
    Records .hasLoadToken e []
  | loadToken {argument : Pattern} {target x : Expr} {annotations : Annotations}
    {found : List Recording} (loads : Annotations.hasLoadToken annotations = true)
    (matched : Records argument x found) :
    Records (.loadToken argument) ⟨.call target [x], annotations⟩
      (found.map (Recording.under [1]))
  | callOf {items : List Item} {target : Expr} {arguments : List Expr} {annotations : Annotations}
    {method : Method} {found : List Recording}
    (resolved : Annotations.method? annotations = some method)
    (matched : RecordsItems items arguments 1 found) :
    Records (.callOf method.fullName items) ⟨.call target arguments, annotations⟩ found
  | castTo {typeNames : List String} {operand : Pattern} {type : TypeSyntax} {x : Expr}
    {annotations : Annotations} {found : List Recording}
    (refers : typeNames.any type.refersTo = true) (matched : Records operand x found) :
    Records (.castTo typeNames operand) ⟨.cast type x, annotations⟩
      (found.map (Recording.under [0]))

/-- A way for items to match all parts from an index on. Any optional item may be left out. -/
inductive RecordsItems : List Item → List Expr → Nat → List Recording → Prop
  | nil {i : Nat} : RecordsItems [] [] i []
  | required {p : Pattern} {rest : List Item} {part : Expr} {parts : List Expr} {i : Nat}
    {found more : List Recording} (matched : Records p part found)
    (others : RecordsItems rest parts (i + 1) more) :
    RecordsItems (.required p :: rest) (part :: parts) i
      (found.map (Recording.under [i]) ++ more)
  | optional {p : Pattern} {rest : List Item} {part : Expr} {parts : List Expr} {i : Nat}
    {found more : List Recording} (matched : Records p part found)
    (others : RecordsItems rest parts (i + 1) more) :
    RecordsItems (.optional p :: rest) (part :: parts) i
      (found.map (Recording.under [i]) ++ more)
  | leftOut {p : Pattern} {rest : List Item} {parts : List Expr} {i : Nat}
    {found : List Recording} (others : RecordsItems rest parts i found) :
    RecordsItems (.optional p :: rest) parts i found

end

theorem drop_parts_eq_cons_iff {e part : Expr} {parts : List Expr} {i : Nat} :
    e.parts.drop i = part :: parts ↔ e.child? i = some part ∧ e.parts.drop (i + 1) = parts := by
  constructor
  · intro h
    have hhead : (e.parts.drop i)[0]? = some part := by rw [h]; rfl
    have htail : (e.parts.drop i).tail = parts := by rw [h]; rfl
    rw [List.getElem?_drop, Nat.add_zero] at hhead
    rw [List.tail_drop] at htail
    exact ⟨hhead, htail⟩
  · rintro ⟨hpart, rfl⟩
    obtain ⟨hi, rfl⟩ := List.getElem?_eq_some_iff.mp hpart
    exact List.drop_eq_getElem_cons hi

theorem drop_parts_call (target : Expr) (arguments : List Expr) (annotations : Annotations) :
    (Expr.parts ⟨.call target arguments, annotations⟩).drop 1 = arguments := by
  rw [Expr.parts_call]
  rfl

section Recordings

variable {patterns patterns' : List (String × Pattern)} {e part : Expr} {p : Pattern}
  {r : Recording} {found : List Recording} {m : Match}

/-- The recording is of a capture among the patterns, and leads from `e` to a node that the pattern
it captures matches. -/
def PointsAt (patterns : List (String × Pattern)) (e : Expr) (r : Recording) : Prop :=
  (r.name, r.inner) ∈ patterns ∧
    ∃ node found, e.descendant? r.path = some node ∧ Records r.inner node found

theorem PointsAt.mono (h : patterns ⊆ patterns') (hr : PointsAt patterns e r) :
    PointsAt patterns' e r := hr.imp_left fun hmem => h hmem

theorem pointsAt_under {i : Nat} (hpart : e.child? i = some part)
    (h : ∀ r ∈ found, PointsAt patterns part r) :
    ∀ r ∈ found.map (Recording.under [i]), PointsAt patterns e r := by
  rw [List.forall_mem_map]
  intro r hr
  obtain ⟨hmem, node, inner, hnode, hrecords⟩ := h r hr
  refine ⟨hmem, node, inner, ?_, hrecords⟩
  change (e.child? i).bind (Expr.descendant? r.path) = some node
  rw [hpart]
  exact hnode

theorem captured_subset_choice {ps : List Pattern} (mem : p ∈ ps) :
    p.captured ⊆ capturedChoice ps := by
  induction ps with
  | nil => cases mem
  | cons q rest ih =>
    rcases List.mem_cons.mp mem with rfl | hmem
    · exact List.subset_append_left _ _
    · exact List.subset_append_of_subset_right _ (ih hmem)

mutual

/-- On every way to match, all recordings point at what their own patterns match. -/
theorem Records.pointsAt {p : Pattern} {e : Expr} {found : List Recording}
    (h : Records p e found) : ∀ r ∈ found, PointsAt p.captured e r := by
  cases h with
  | any | typeOf | hasLoadToken => exact nofun
  | capture matched =>
    rw [List.forall_mem_append, List.forall_mem_singleton]
    constructor
    · intro r hr
      exact (matched.pointsAt r hr).mono (List.subset_cons_self _ _)
    · exact ⟨List.mem_cons_self, _, _, rfl, matched⟩
  | choice mem matched =>
    intro r hr
    exact (matched.pointsAt r hr).mono (captured_subset_choice mem)
  | member matched => exact pointsAt_under rfl matched.pointsAt
  | refType matched => exact pointsAt_under rfl matched.pointsAt
  | loadToken _ matched => exact pointsAt_under rfl matched.pointsAt
  | castTo _ matched => exact pointsAt_under rfl matched.pointsAt
  | callOf _ matched => exact matched.pointsAt (drop_parts_call _ _ _)

theorem RecordsItems.pointsAt {items : List Item} {parts : List Expr} {i : Nat} {e : Expr}
    {found : List Recording} (h : RecordsItems items parts i found)
    (hparts : e.parts.drop i = parts) : ∀ r ∈ found, PointsAt (capturedItems items) e r := by
  cases h with
  | nil => exact nofun
  | required matched others | optional matched others =>
    obtain ⟨hpart, hrest⟩ := drop_parts_eq_cons_iff.mp hparts
    rw [List.forall_mem_append]
    constructor
    · intro r hr
      exact (pointsAt_under hpart matched.pointsAt r hr).mono (List.subset_append_left _ _)
    · intro r hr
      exact (others.pointsAt hrest r hr).mono (List.subset_append_right _ _)
  | leftOut others =>
    intro r hr
    exact (others.pointsAt hparts r hr).mono (List.subset_append_right _ _)

end

theorem isSome_descend {visit : Expr → Match → Option Match} {i : Nat}
    (hpart : e.child? i = some part) (h : ∀ m, (visit part m).isSome = true) :
    (m.descend e i visit).isSome = true := by
  obtain ⟨inner, hinner⟩ := Option.isSome_iff_exists.mp (h (m.enter i))
  simp only [Match.enter] at hinner
  simp [Match.descend, hpart, hinner]

/-- A part and then the rest succeed together if each does from every match in progress. -/
theorem isSome_both {visit : Expr → Match → Option Match} {next : Match → Option Match} {i : Nat}
    (hpart : e.child? i = some part) (h : ∀ m, (visit part m).isSome = true)
    (hnext : ∀ m, (next m).isSome = true) :
    ((m.descend e i visit).bind next).isSome = true := by
  obtain ⟨m', hm'⟩ := Option.isSome_iff_exists.mp (isSome_descend hpart h)
  rw [hm']
  exact hnext m'

theorem isSome_runChoice {ps : List Pattern} (mem : p ∈ ps) (h : (run p e m).isSome = true) :
    (runChoice ps e m).isSome = true := by
  induction ps with
  | nil => cases mem
  | cons q rest ih =>
    rw [runChoice, Option.isSome_or, Bool.or_eq_true]
    rcases List.mem_cons.mp mem with rfl | hmem
    · exact Or.inl h
    · exact Or.inr (ih hmem)

mutual

/-- Where there is a way to match, a visit succeeds. -/
theorem Records.isSome_run {p : Pattern} {e : Expr} {found : List Recording}
    (h : Records p e found) (m : Match) : (run p e m).isSome = true := by
  cases h with
  | any | typeOf => rfl
  | capture matched =>
    rw [run, Option.isSome_map]
    exact matched.isSome_run m
  | choice mem matched => exact isSome_runChoice mem (matched.isSome_run m)
  | member matched =>
    simp only [run, if_true]
    exact isSome_descend rfl matched.isSome_run
  | refType matched => exact isSome_descend rfl matched.isSome_run
  | hasLoadToken loads =>
    rw [run, if_pos loads]
    rfl
  | loadToken loads matched =>
    simp only [run, if_pos loads]
    exact isSome_descend rfl matched.isSome_run
  | callOf resolved matched =>
    simp only [run, Expr.method?, resolved, if_true]
    exact matched.isSome_run (drop_parts_call _ _ _) m
  | castTo refers matched =>
    simp only [run, if_pos refers]
    exact isSome_descend rfl matched.isSome_run

theorem RecordsItems.isSome_run {items : List Item} {parts : List Expr} {i : Nat} {e : Expr}
    {found : List Recording} (h : RecordsItems items parts i found)
    (hparts : e.parts.drop i = parts) (m : Match) : (runItems items e i m).isSome = true := by
  cases h with
  | nil =>
    rw [runItems, if_pos (List.drop_eq_nil_iff.mp hparts)]
    rfl
  | required matched others =>
    obtain ⟨hpart, hrest⟩ := drop_parts_eq_cons_iff.mp hparts
    exact isSome_both hpart matched.isSome_run (others.isSome_run hrest)
  | optional matched others =>
    obtain ⟨hpart, hrest⟩ := drop_parts_eq_cons_iff.mp hparts
    rw [runItems, Option.isSome_or, isSome_both hpart matched.isSome_run (others.isSome_run hrest)]
    rfl
  | leftOut others =>
    rw [runItems, Option.isSome_or, others.isSome_run hparts m, Bool.or_true]

end

end Recordings

/-- From every match in progress an attempt and a visit find the same, and that is allowed. -/
structure Finds (allowed : List Recording → Prop) (attempt : Attempt)
    (visit : Match → Option Match) (found? : Option (List Recording)) : Prop where
  perform_eq (m : Match) : perform attempt m = (found?.isSome, m.extend (found?.getD []))
  visit_eq (m : Match) : visit m = found?.map m.extend
  isAllowed : ∀ found ∈ found?, allowed found

section Finding

variable {allowed allowed' allowedNext : List Recording → Prop} {e : Expr}
  {attempt next other : Attempt} {visit visitNext visitOther : Match → Option Match}
  {found? more? other? : Option (List Recording)}

namespace Finds

theorem mono (h : Finds allowed attempt visit found?)
    (himp : ∀ found, allowed found → allowed' found) : Finds allowed' attempt visit found? where
  perform_eq := h.perform_eq
  visit_eq := h.visit_eq
  isAllowed found hfound := himp found (h.isAllowed found hfound)

theorem failing : Finds allowed (pure false) (fun _ => none) none where
  perform_eq m := by simp [perform]
  visit_eq _ := rfl
  isAllowed := nofun

theorem succeeding (h : allowed []) : Finds allowed (pure true) some (some []) where
  perform_eq m := by simp [perform]
  visit_eq m := by simp
  isAllowed found hfound := by
    cases hfound
    exact h

theorem testing (holds : Prop) [Decidable holds] (h : holds → allowed []) :
    Finds allowed (pure (decide holds)) (fun m => if holds then some m else none)
      (if holds then some [] else none) := by
  by_cases hholds : holds
  · simpa [hholds] using succeeding (h hholds)
  · simpa [hholds] using failing

/-- What a part holds is found under the index of the part. -/
theorem descend {attempt : Expr → Attempt} {visit : Expr → Match → Option Match} {i : Nat}
    {part : Expr} (hpart : e.child? i = some part)
    (h : Finds allowed (attempt part) (visit part) found?)
    (hunder : ∀ found, allowed found → allowed' (found.map (Recording.under [i]))) :
    Finds allowed' (Attempt.descend e i attempt) (fun m => m.descend e i visit)
      (found?.map (·.map (Recording.under [i]))) where
  perform_eq m := by
    rw [perform_descend hpart, h.perform_eq]
    cases found? <;> simp [Match.leave_extend_enter]
  visit_eq m := by
    have hinner := h.visit_eq (m.enter i)
    simp only [Match.enter] at hinner
    cases found? <;>
      simp [Match.descend, hpart, hinner, Match.extend, Recording.capture, Recording.under]
  isAllowed found hfound := by
    obtain ⟨inner, hinner, rfl⟩ := Option.map_eq_some_iff.mp hfound
    exact hunder inner (h.isAllowed inner hinner)

theorem orElse (h : Finds allowed attempt visit found?)
    (hother : Finds allowed other visitOther other?) :
    Finds allowed (Attempt.orElse attempt other) (fun m => (visit m).or (visitOther m))
      (found?.or other?) where
  perform_eq m := by
    cases found? <;> simp [Attempt.orElse, h.perform_eq, hother.perform_eq, Match.restore_self]
  visit_eq m := by
    cases found? <;> simp [h.visit_eq, hother.visit_eq]
  isAllowed found hfound := by
    rcases Option.or_eq_some_iff.mp hfound with hfound | ⟨_, hfound⟩
    · exact h.isAllowed found hfound
    · exact hother.isAllowed found hfound

theorem bothOrElse (h : Finds allowed attempt visit found?)
    (hnext : Finds allowedNext next visitNext more?)
    (hboth : ∀ found more, allowed found → allowedNext more → allowed' (found ++ more))
    (hother : Finds allowed' other visitOther other?) :
    Finds allowed' (Attempt.bothOrElse attempt next other)
      (fun m => ((visit m).bind visitNext).or (visitOther m))
      ((found?.bind fun found => more?.map (found ++ ·)).or other?) where
  perform_eq m := by
    cases found? with
    | none => simp [Attempt.bothOrElse, h.perform_eq, hother.perform_eq, Match.restore_self]
    | some found =>
      cases more? <;>
        simp [Attempt.bothOrElse, h.perform_eq, hnext.perform_eq, hother.perform_eq,
          Match.restore_extend, Match.extend_extend]
  visit_eq m := by
    cases found? <;> cases more? <;>
      simp [h.visit_eq, hnext.visit_eq, hother.visit_eq, Match.extend_extend]
  isAllowed found hfound := by
    rcases Option.or_eq_some_iff.mp hfound with hfound | ⟨_, hfound⟩
    · obtain ⟨first, hfirst, hmore⟩ := Option.bind_eq_some_iff.mp hfound
      obtain ⟨second, hsecond, rfl⟩ := Option.map_eq_some_iff.mp hmore
      exact hboth first second (h.isAllowed first hfirst) (hnext.isAllowed second hsecond)
    · exact hother.isAllowed found hfound

theorem recordAfter {name : String} {inner : Pattern}
    (h : Finds (Records inner e) attempt visit found?) :
    Finds (Records (.capture name inner) e) (Attempt.recordAfter name attempt)
      (fun m => (visit m).map (·.record name)) (found?.map (· ++ [⟨name, [], inner⟩])) where
  perform_eq m := by
    cases found? <;>
      simp [Attempt.recordAfter, h.perform_eq, Match.record, Match.extend, Recording.capture]
  visit_eq m := by
    cases found? <;> simp [h.visit_eq, Match.record, Match.extend, Recording.capture]
  isAllowed found hfound := by
    obtain ⟨first, hfirst, rfl⟩ := Option.map_eq_some_iff.mp hfound
    exact .capture (h.isAllowed first hfirst)

/-- A part is visited where the whole has the right shape. -/
theorem exists_guarded {attempt : Expr → Attempt} {visit : Expr → Match → Option Match}
    {i : Nat} {part : Expr} (hpart : e.child? i = some part) (fits : Prop) [Decidable fits]
    (h : ∃ found?, Finds allowed (attempt part) (visit part) found?)
    (hunder : fits → ∀ found, allowed found → allowed' (found.map (Recording.under [i]))) :
    ∃ found?, Finds allowed' (if fits then Attempt.descend e i attempt else pure false)
      (fun m => if fits then m.descend e i visit else none) found? := by
  by_cases hfits : fits
  · obtain ⟨found?, hfound⟩ := h
    simp only [if_pos hfits]
    exact ⟨_, descend hpart hfound (hunder hfits)⟩
  · simp only [if_neg hfits]
    exact ⟨none, failing⟩

/-- A part is matched and then the rest. Something else is tried where that fails or where there
is no part left. -/
theorem exists_atPart {attempt : Expr → Attempt} {visit : Expr → Match → Option Match}
    {partAllowed : Expr → List Recording → Prop} (i : Nat)
    (h : ∀ part, ∃ found?, Finds (partAllowed part) (attempt part) (visit part) found?)
    (hnext : Finds allowedNext next visitNext more?)
    (hboth : ∀ part, e.child? i = some part → ∀ found more, partAllowed part found →
      allowedNext more → allowed (found.map (Recording.under [i]) ++ more))
    (hother : Finds allowed other visitOther other?) :
    ∃ found?, Finds allowed
      (if e.parts.length ≤ i then other
        else Attempt.bothOrElse (Attempt.descend e i attempt) next other)
      (fun m => ((m.descend e i visit).bind visitNext).or (visitOther m)) found? := by
  by_cases hlength : e.parts.length ≤ i
  · have hpart : e.child? i = none := List.getElem?_eq_none hlength
    simp only [if_pos hlength, Match.descend, hpart, Option.bind_eq_bind, Option.bind_none,
      Option.none_or]
    exact ⟨other?, hother⟩
  · have hi : i < e.parts.length := Nat.lt_of_not_le hlength
    have hpart : e.child? i = some e.parts[i] := List.getElem?_eq_getElem hi
    obtain ⟨found?, hfound⟩ := h e.parts[i]
    simp only [if_neg hlength]
    have hfirst : Finds (fun found => ∀ more, allowedNext more → allowed (found ++ more))
        (Attempt.descend e i attempt) (fun m => m.descend e i visit)
        (found?.map (·.map (Recording.under [i]))) :=
      descend hpart hfound fun found hallowed more hmore => hboth _ hpart found more hallowed hmore
    exact ⟨_, hfirst.bothOrElse hnext (fun found more h hmore => h more hmore) hother⟩

end Finds

theorem exists_finds_loadToken {argument : Pattern} (target : Expr) (arguments : List Expr)
    (annotations : Annotations)
    (h : ∀ x, ∃ found?, Finds (Records argument x) (argument.attempt x) (run argument x) found?) :
    ∃ found?, Finds (Records (.loadToken argument) ⟨.call target arguments, annotations⟩)
      (Pattern.attempt (.loadToken argument) ⟨.call target arguments, annotations⟩)
      (run (.loadToken argument) ⟨.call target arguments, annotations⟩) found? := by
  have hattempt : Pattern.attempt (.loadToken argument) ⟨.call target arguments, annotations⟩ =
      if Annotations.hasLoadToken annotations && arguments.length = 1 then
        descend ⟨.call target arguments, annotations⟩ 1 argument.attempt
      else return false := rfl
  rcases arguments with _ | ⟨x, _ | ⟨y, more⟩⟩
  · simp only [hattempt, List.length_nil, Nat.zero_ne_one, decide_false, Bool.and_false]
    exact ⟨none, .failing⟩
  · simp only [hattempt, List.length_singleton, decide_true, Bool.and_true]
    exact Finds.exists_guarded rfl (Annotations.hasLoadToken annotations = true) (h x)
      fun loads found => .loadToken loads
  · simp only [hattempt, List.length_cons, Nat.add_eq_right, Nat.add_eq_zero_iff,
      Nat.one_ne_zero, and_false, decide_false, Bool.and_false]
    exact ⟨none, .failing⟩

theorem exists_finds_callOf {fullName : String} {items : List Item} {target : Expr}
    {arguments : List Expr} {annotations : Annotations}
    (h : Finds (RecordsItems items ((Expr.parts ⟨.call target arguments, annotations⟩).drop 1) 1)
      (attemptItems items ⟨.call target arguments, annotations⟩ 1)
      (runItems items ⟨.call target arguments, annotations⟩ 1) found?) :
    ∃ found?, Finds (Records (.callOf fullName items) ⟨.call target arguments, annotations⟩)
      (Pattern.attempt (.callOf fullName items) ⟨.call target arguments, annotations⟩)
      (run (.callOf fullName items) ⟨.call target arguments, annotations⟩) found? := by
  have hattempt : Pattern.attempt (.callOf fullName items)
      ⟨.call target arguments, annotations⟩ =
      if (Annotations.method? annotations).any (·.fullName == fullName) then
        attemptItems items ⟨.call target arguments, annotations⟩ 1
      else return false := rfl
  have hrun (m : Match) : run (.callOf fullName items) ⟨.call target arguments, annotations⟩ m =
      if (Annotations.method? annotations).any (·.fullName == fullName) then
        runItems items ⟨.call target arguments, annotations⟩ 1 m
      else none := by
    simp only [run, Expr.method?]
    cases Annotations.method? annotations <;> simp
  rw [hattempt, funext hrun]
  split
  next hresolved =>
    obtain ⟨method, resolved, named⟩ := (Option.any_eq_true _ _).mp hresolved
    refine ⟨found?, h.mono fun found matched => ?_⟩
    rw [drop_parts_call] at matched
    rw [← beq_iff_eq.mp named]
    exact .callOf resolved matched
  next => exact ⟨none, .failing⟩

mutual

/-- What an attempt finds is on one of the ways to match. -/
theorem exists_finds (p : Pattern) (e : Expr) :
    ∃ found?, Finds (Records p e) (p.attempt e) (run p e) found? := by
  cases p with
  | any => exact ⟨_, .succeeding .any⟩
  | capture name inner =>
    obtain ⟨found?, h⟩ := exists_finds inner e
    exact ⟨_, h.recordAfter⟩
  | choice alternatives =>
    obtain ⟨found?, h⟩ := exists_finds_choice alternatives e
    refine ⟨found?, h.mono ?_⟩
    rintro found ⟨p, mem, matched⟩
    exact .choice mem matched
  | member name target =>
    obtain ⟨form, annotations⟩ := e
    cases form with
    | member x found typeArguments =>
      cases typeArguments with
      | nil =>
        refine Finds.exists_guarded rfl (found = name) (exists_finds target x) ?_
        rintro rfl found matched
        exact .member matched
      | cons => exact ⟨none, .failing⟩
    | _ => exact ⟨none, .failing⟩
  | typeOf =>
    obtain ⟨form, annotations⟩ := e
    cases form with
    | typeOf type => exact ⟨_, .succeeding .typeOf⟩
    | _ => exact ⟨none, .failing⟩
  | refType operand =>
    obtain ⟨form, annotations⟩ := e
    cases form with
    | refType x =>
      exact Finds.exists_guarded rfl True (exists_finds operand x) fun _ found => .refType
    | _ => exact ⟨none, .failing⟩
  | hasLoadToken =>
    have h : Finds (Records .hasLoadToken e) (pure (decide _)) _ _ :=
      Finds.testing (Annotations.hasLoadToken e.annotations = true) .hasLoadToken
    rw [Bool.decide_eq_true] at h
    exact ⟨_, h⟩
  | loadToken argument =>
    obtain ⟨form, annotations⟩ := e
    cases form with
    | call target arguments =>
      exact exists_finds_loadToken target arguments annotations (exists_finds argument)
    | _ => exact ⟨none, .failing⟩
  | callOf fullName items =>
    obtain ⟨found?, h⟩ := exists_finds_items items e 1
    obtain ⟨form, annotations⟩ := e
    cases form with
    | call target arguments => exact exists_finds_callOf h
    | _ => exact ⟨none, .failing⟩
  | castTo typeNames operand =>
    obtain ⟨form, annotations⟩ := e
    cases form with
    | cast type x =>
      exact Finds.exists_guarded rfl (typeNames.any type.refersTo = true)
        (exists_finds operand x) fun refers found => .castTo refers
    | _ => exact ⟨none, .failing⟩

theorem exists_finds_choice (ps : List Pattern) (e : Expr) :
    ∃ found?, Finds (fun found => ∃ p ∈ ps, Records p e found) (attemptChoice ps e)
      (runChoice ps e) found? := by
  cases ps with
  | nil => exact ⟨none, .failing⟩
  | cons p rest =>
    obtain ⟨found?, h⟩ := exists_finds p e
    obtain ⟨more?, hmore⟩ := exists_finds_choice rest e
    refine ⟨_, (h.mono ?_).orElse (hmore.mono ?_)⟩
    · intro found matched
      exact ⟨p, List.mem_cons_self, matched⟩
    · rintro found ⟨q, mem, matched⟩
      exact ⟨q, List.mem_cons_of_mem _ mem, matched⟩

theorem exists_finds_items (items : List Item) (e : Expr) (i : Nat) :
    ∃ found?, Finds (RecordsItems items (e.parts.drop i) i) (attemptItems items e i)
      (runItems items e i) found? := by
  cases items with
  | nil =>
    refine ⟨_, .testing (e.parts.length ≤ i) ?_⟩
    intro hlength
    rw [List.drop_eq_nil_of_le hlength]
    exact .nil
  | cons item rest =>
    obtain ⟨more?, hmore⟩ := exists_finds_items rest e (i + 1)
    cases item with
    | required p =>
      have hboth (part : Expr) (hpart : e.child? i = some part) (found more : List Recording)
          (matched : Records p part found)
          (others : RecordsItems rest (e.parts.drop (i + 1)) (i + 1) more) :
          RecordsItems (.required p :: rest) (e.parts.drop i) i
            (found.map (Recording.under [i]) ++ more) := by
        rw [drop_parts_eq_cons_iff.mpr ⟨hpart, rfl⟩]
        exact .required matched others
      have h := Finds.exists_atPart i (exists_finds p) hmore hboth .failing
      simp only [Option.or_none] at h
      exact h
    | optional p =>
      obtain ⟨other?, hother⟩ := exists_finds_items rest e i
      refine Finds.exists_atPart i (exists_finds p) hmore ?_
        (hother.mono fun found => .leftOut)
      intro part hpart found more matched others
      rw [drop_parts_eq_cons_iff.mpr ⟨hpart, rfl⟩]
      exact .optional matched others

end

end Finding

/-- An attempt leaves the match that a visit gives, or else the one it was made from. -/
theorem perform_attempt (p : Pattern) (e : Expr) (m : Match) :
    perform (p.attempt e) m = ((run p e m).isSome, (run p e m).getD m) := by
  obtain ⟨found?, h⟩ := exists_finds p e
  rw [h.perform_eq, h.visit_eq]
  cases found? <;> simp

theorem succeeds_iff (p : Pattern) (e : Expr) (m : Match) :
    (perform (p.attempt e) m).1 = (p.match? e).isSome := by
  obtain ⟨found?, h⟩ := exists_finds p e
  rw [h.perform_eq, match?, h.visit_eq, Option.isSome_map]

/-- A pattern succeeds exactly where there is a way for it to match. -/
theorem succeeds_iff_exists_records (p : Pattern) (e : Expr) (m : Match) :
    (perform (p.attempt e) m).1 = true ↔ ∃ found, Records p e found := by
  constructor
  · intro hsucceeded
    obtain ⟨found?, h⟩ := exists_finds p e
    rw [h.perform_eq] at hsucceeded
    obtain ⟨found, rfl⟩ := Option.isSome_iff_exists.mp hsucceeded
    exact ⟨found, h.isAllowed found rfl⟩
  · rintro ⟨found, hrecords⟩
    rw [perform_attempt]
    exact hrecords.isSome_run m

/-- An attempt comes back to where it began. It leaves all captures as they were and, where it
succeeds, adds those of a way for the pattern to match, each of which leads from there to a node
that the very pattern it captures matches. Whether it succeeds does not depend on the match in
progress, but on whether there is such a way. -/
theorem attempt_backtracks (p : Pattern) (e : Expr) (m : Match) :
    perform (p.attempt e) m = ((run p e m).isSome, (run p e m).getD m) ∧
      (perform (p.attempt e) m).2.path = m.path ∧
      ((perform (p.attempt e) m).1 = false →
        (perform (p.attempt e) m).2.captures = m.captures) ∧
      ((perform (p.attempt e) m).1 = true → ∃ found, Records p e found ∧
        (perform (p.attempt e) m).2.captures =
          m.captures ++ found.map (fun r => ⟨r.name, m.path ++ r.path⟩) ∧
        ∀ r ∈ found, (r.name, r.inner) ∈ p.captured ∧
          ∃ node, e.descendant? r.path = some node ∧
            ∀ m', (perform (r.inner.attempt node) m').1 = true) ∧
      ((perform (p.attempt e) m).1 = true ↔ ∃ found, Records p e found) ∧
      ∀ m', (perform (p.attempt e) m').1 = (perform (p.attempt e) m).1 := by
  obtain ⟨found?, h⟩ := exists_finds p e
  refine ⟨perform_attempt p e m, ?_, ?_, ?_, succeeds_iff_exists_records p e m, ?_⟩
  · rw [h.perform_eq, Match.path_extend]
  · intro hfailed
    rw [h.perform_eq] at hfailed ⊢
    cases found? with
    | none => simp
    | some found => cases hfailed
  · intro hsucceeded
    rw [h.perform_eq] at hsucceeded ⊢
    cases found? with
    | none => cases hsucceeded
    | some found =>
      have hrecords : Records p e found := h.isAllowed found rfl
      refine ⟨found, hrecords, rfl, ?_⟩
      intro r hr
      obtain ⟨hmem, node, inner, hnode, hinner⟩ := hrecords.pointsAt r hr
      refine ⟨hmem, node, hnode, ?_⟩
      intro m'
      exact (succeeds_iff_exists_records r.inner node m').mpr ⟨inner, hinner⟩
  · intro m'
    rw [succeeds_iff, succeeds_iff]

end Pattern

end OperatorRecovery
