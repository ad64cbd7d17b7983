import OperatorRecovery.Expr

/-!
Paths into expressions. A path lists the indices of the parts to follow; the
empty path leads to the expression itself. Changing an expression at a path
leaves everything off the path as it was.
-/

namespace OperatorRecovery.Expr

abbrev Path := List Nat

def child? (e : Expr) (i : Nat) : Option Expr := e.parts[i]?

def descendant? : Path → Expr → Option Expr
  | [], e => some e
  | i :: path, e => (e.child? i).bind (descendant? path)

def modifyChild (i : Nat) (g : Expr → Expr) (e : Expr) : Expr :=
  { e with form := e.form.mapSlots fun j _ part => if j = i then g part else part }

def modifyAt : Path → (Expr → Expr) → Expr → Expr
  | [], g => g
  | i :: path, g => modifyChild i (modifyAt path g)

def replaceAt (root : Expr) (path : Path) (replacement : Expr) : Expr :=
  root.modifyAt path fun _ => replacement

/-- Leaves a hole at the path. -/
def detachAt (root : Expr) (path : Path) : Expr := root.replaceAt path hole

/-- Appends annotations. -/
def annotate (e : Expr) (annotations : Annotations) : Expr :=
  { e with annotations := e.annotations ++ annotations }

/-- Appends the instruction ranges of `donor` alone. -/
def inheritInstructions (e : Expr) (donor : Annotations) : Expr :=
  { e with annotations := Annotations.inheritInstructions e.annotations donor }

def dropArguments (e : Expr) : Expr := { e with form := e.form.dropArguments }

theorem descendant?_append (p q : Path) (e : Expr) :
    descendant? (p ++ q) e = (descendant? p e).bind (descendant? q) := by
  induction p generalizing e with
  | nil => rfl
  | cons i p ih =>
    simp only [List.cons_append, descendant?]
    cases e.child? i with
    | none => rfl
    | some part => exact ih part

theorem annotate_annotations (e : Expr) (annotations : Annotations) :
    (e.annotate annotations).annotations = e.annotations ++ annotations := rfl

end OperatorRecovery.Expr
