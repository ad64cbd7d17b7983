import OperatorRecovery.Path

/-!
Moving expressions about in a tree. Each operation works at a path and gives
both what was there and the tree afterwards; there is no result where the path
leads nowhere. What is taken out leaves a hole, so nothing is ever in two places.
-/

namespace OperatorRecovery.Expr

def detach? (root : Expr) (path : Path) : Option (Expr × Expr) :=
  (root.descendant? path).map fun found => (found, root.detachAt path)

def replace? (root : Expr) (path : Path) (replacement : Expr) : Option (Expr × Expr) :=
  (root.descendant? path).map fun found => (found, root.replaceAt path replacement)

/-- Replaces an expression that hands its annotations on to the replacement. -/
def supersede? (root : Expr) (path : Path) (replacement : Expr) : Option (Expr × Expr) :=
  (root.descendant? path).map fun found =>
    (.ofForm found.form, root.replaceAt path (replacement.annotate found.annotations))

/-- Takes the arguments out of a call or an object creation. -/
def takeArguments? (root : Expr) (path : Path) : Option (List Expr × Expr) :=
  (root.descendant? path).map fun found => (found.arguments, root.modifyAt path dropArguments)

/-- What a move gives: nothing was at the source, nothing was left at the
destination, or something was replaced there. -/
inductive Moved
  | noSource
  | noDestination
  | replaced (previous result : Expr)

/-- Takes an expression out and puts it elsewhere in what is left. -/
def move (root : Expr) (source destination : Path) : Moved :=
  match root.detach? source with
  | none => .noSource
  | some (found, rest) =>
    match rest.replace? destination found with
    | none => .noDestination
    | some (previous, result) => .replaced previous result

end OperatorRecovery.Expr
