import OperatorRecovery.Path

/-!
Patterns over the shape of expressions. A match starts at an expression, walks
down through its parts, and records under names the paths of what it captured.
Where an attempt fails, its captures are dropped.
-/

namespace OperatorRecovery

mutual

inductive Pattern
  | any
  | capture (name : String) (inner : Pattern)
  /-- The first alternative that succeeds. -/
  | choice (alternatives : List Pattern)
  /-- A member access of that name without type arguments. -/
  | member (name : String) (target : Pattern)
  | typeOf
  | refType (operand : Pattern)
  | hasLoadToken
  /-- A call that carries a load token and has exactly one argument. -/
  | loadToken (argument : Pattern)
  /-- A call resolved to the method of that qualified name. -/
  | callOf (fullName : String) (arguments : List Item)
  /-- A cast to a type that refers to one of the names. -/
  | castTo (typeNames : List String) (operand : Pattern)

inductive Item
  | required (pattern : Pattern)
  | optional (pattern : Pattern)

end

structure Capture where
  name : String
  path : Expr.Path
  deriving DecidableEq, Repr

/-- A match in progress: the path from where it started, and its captures. -/
structure Match where
  path : Expr.Path
  captures : List Capture
  deriving DecidableEq, Repr

namespace Match

def start : Match := ⟨[], []⟩

/-- The path of the first capture of that name. -/
def capture? (m : Match) (name : String) : Option Expr.Path :=
  (m.captures.find? (·.name == name)).map (·.path)

def record (m : Match) (name : String) : Match :=
  { m with captures := m.captures ++ [⟨name, m.path⟩] }

/-- Continues at a part and comes back with what was captured there. -/
def descend (m : Match) (e : Expr) (i : Nat) (visit : Expr → Match → Option Match) :
    Option Match := do
  let part ← e.child? i
  let inner ← visit part { m with path := m.path ++ [i] }
  return { m with captures := inner.captures }

end Match

namespace Pattern

instance : Inhabited Pattern := ⟨.any⟩

mutual

def run : Pattern → Expr → Match → Option Match
  | .any, _, m => some m
  | .capture name inner, e, m => (run inner e m).map (·.record name)
  | .choice alternatives, e, m => runChoice alternatives e m
  | .member name target, e, m =>
    match e.form with
    | .member _ found [] => if found = name then m.descend e 0 (run target) else none
    | _ => none
  | .typeOf, e, m =>
    match e.form with
    | .typeOf _ => some m
    | _ => none
  | .refType operand, e, m =>
    match e.form with
    | .refType _ => m.descend e 0 (run operand)
    | _ => none
  | .hasLoadToken, e, m => if Annotations.hasLoadToken e.annotations then some m else none
  | .loadToken argument, e, m =>
    match e.form with
    | .call _ [_] =>
      if Annotations.hasLoadToken e.annotations then m.descend e 1 (run argument) else none
    | _ => none
  | .callOf fullName arguments, e, m =>
    match e.form, e.method? with
    | .call _ _, some method =>
      if method.fullName = fullName then runItems arguments e 1 m else none
    | _, _ => none
  | .castTo typeNames operand, e, m =>
    match e.form with
    | .cast type _ => if typeNames.any type.refersTo then m.descend e 0 (run operand) else none
    | _ => none

def runChoice : List Pattern → Expr → Match → Option Match
  | [], _, _ => none
  | p :: rest, e, m => (run p e m).or (runChoice rest e m)

/-- Matches the parts of `e` from index `i` on, all of which must be used up. An
optional item is used where a match with it can be completed. -/
def runItems : List Item → Expr → Nat → Match → Option Match
  | [], e, i, m => if e.parts.length ≤ i then some m else none
  | item :: rest, e, i, m =>
    match item with
    | .required p => (m.descend e i (run p)).bind (runItems rest e (i + 1))
    | .optional p =>
      ((m.descend e i (run p)).bind (runItems rest e (i + 1))).or (runItems rest e i m)

end

def match? (p : Pattern) (e : Expr) : Option Match := run p e .start

end Pattern

end OperatorRecovery
