import OperatorRecovery.Proofs.InPlace
import OperatorRecovery.Proofs.Settling

/-!
Calls that are declined. A rewrite works on the call in place, so one that gives up has to leave
the call as it found it, or the next one is offered something else. It does, and the pass ends
with the call as it was exactly where every rewrite gave up: what a rewrite accepts has less work
left in it afterwards and cannot be the same call.
-/

namespace OperatorRecovery.Edit

open Pass

variable (settings : Settings) (spelling : Spelling) (role : Role) (method : Method)

/-- Offers a call to rewrites in turn until one accepts it, and gives the rule of that one. -/
def offer : List CallRewrite → Edit (Option Rule)
  | [] => return none
  | w :: rest => do
    if !w.isOffered settings role then offer rest
    else if ← w.edit settings spelling method then return some w.rule
    else offer rest

/-- Offers a call with a resolved method to the enabled rewrites. -/
def dispatch : Edit (Option Rule) := do
  let some method := (← get).method? | return none
  offer settings spelling role method CallRewrite.all

/-- The first rewrite that accepts the call finds it unchanged by those before. -/
theorem perform_offer (order : List CallRewrite) (call : Expr) :
    let recovery := order.findSome? fun w =>
      if w.isOffered settings role then w.attempt? settings spelling method call else none
    ((offer settings spelling role method order).perform call).1.isSome = recovery.isSome ∧
      ((offer settings spelling role method order).perform call).2 = recovery.getD call := by
  induction order with
  | nil => exact ⟨rfl, rfl⟩
  | cons w rest ih =>
    rw [offer, perform_ite]
    cases hoffered : w.isOffered settings role with
    | false => simpa [hoffered] using ih
    | true =>
      rw [if_neg (by simp), perform_bind, w.perform_edit]
      cases hattempt : w.attempt? settings spelling method call with
      | none => simpa [hoffered, hattempt] using ih
      | some result => simp [hoffered, hattempt]

theorem perform_dispatch (node : Expr) :
    let recovery := dispatchIn? CallRewrite.all settings spelling role node
    ((dispatch settings spelling role).perform node).1.isSome = recovery.isSome ∧
      ((dispatch settings spelling role).perform node).2 = recovery.getD node := by
  rw [dispatch, perform_get_bind, dispatchIn?]
  cases node.method? with
  | none => exact ⟨rfl, rfl⟩
  | some method => exact perform_offer settings spelling role method CallRewrite.all node

variable {settings spelling role}

theorem dispatchIn?_all_eq_dispatch? (target : Expr) (arguments : List Expr)
    (annotations : Annotations) :
    dispatchIn? CallRewrite.all settings spelling role ⟨.call target arguments, annotations⟩ =
      dispatch? settings spelling role ⟨.call target arguments, annotations⟩ := by
  cases resolved : Annotations.method? annotations with
  | none =>
    have hmethod : Expr.method? ⟨.call target arguments, annotations⟩ = none := resolved
    rw [dispatchIn?, dispatch?, hmethod]
    rfl
  | some method => exact dispatchIn?_eq_dispatch? resolved CallRewrite.mem_all

/-- What a call is rewritten to has less work left in it. -/
theorem ne_of_dispatch?_eq_some {target result : Expr} {arguments : List Expr}
    {annotations : Annotations}
    (h : dispatch? settings spelling role ⟨.call target arguments, annotations⟩ = some result) :
    result ≠ ⟨.call target arguments, annotations⟩ := by
  rintro rfl
  exact Nat.lt_irrefl _ (rewrites_of_dispatch? h).work_lt

/-- A rewrite that declines a node leaves it as it was. The rules together leave a call as it was
exactly where all of them decline it, and otherwise what the pass makes of it. -/
theorem declined_iff_unchanged (settings : Settings) (spelling : Spelling) (role : Role)
    (target : Expr) (arguments : List Expr) (annotations : Annotations) :
    let call : Expr := ⟨.call target arguments, annotations⟩
    (∀ (method : Method) (w : CallRewrite),
      ((w.edit settings spelling method).perform call).1 = false →
        ((w.edit settings spelling method).perform call).2 = call) ∧
    (((dispatch settings spelling role).perform call).1 = none ↔
      ((dispatch settings spelling role).perform call).2 = call) ∧
    ((dispatch settings spelling role).perform call).2 =
      (dispatch? settings spelling role call).getD call := by
  intro call
  obtain ⟨haccepted, hleft⟩ := perform_dispatch settings spelling role call
  rw [dispatchIn?_all_eq_dispatch?] at haccepted hleft
  refine ⟨?_, ?_, hleft⟩
  · intro method w hdeclined
    rw [w.perform_edit] at hdeclined ⊢
    rw [outcome, Option.isSome_eq_false_iff, Option.isNone_iff_eq_none] at hdeclined
    rw [outcome, hdeclined]
    rfl
  · rw [← Option.isNone_iff_eq_none, ← Option.not_isSome, haccepted, hleft]
    cases hrecovery : dispatch? settings spelling role call with
    | none => simp
    | some result => simpa using ne_of_dispatch?_eq_some hrecovery

end OperatorRecovery.Edit
