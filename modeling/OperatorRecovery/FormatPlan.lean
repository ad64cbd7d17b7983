import OperatorRecovery.CompositeFormat
import OperatorRecovery.Expr

/-!
Plans for interpolated strings. A composite format can become an interpolated
string when it refers to every argument exactly once and in order, so that each
argument keeps its place and is still evaluated once. The first fault from the
left declines the format.
-/

namespace OperatorRecovery.FormatPlan

open CompositeFormat

inductive Segment
  | text (text : List Char)
  | argument (index : Nat) (spec : Option (List Char))
  deriving DecidableEq, Repr

inductive Decline
  | malformed
  | outOfOrder (expected found : Nat)
  | emptySpec (index : Nat)
  | missingArgument (index available : Nat)
  | unusedArguments (count : Nat)
  deriving DecidableEq, Repr

def Decline.message : Decline → String
  | .malformed => "malformed format string"
  | .outOfOrder expected found =>
    "argument " ++ toString found ++ " referenced where " ++ toString expected ++ " was expected"
  | .emptySpec index => "empty format specifier for argument " ++ toString index
  | .missingArgument index available =>
    "argument " ++ toString index ++ " referenced but only " ++ toString available ++ " supplied"
  | .unusedArguments count => toString count ++ " argument(s) never referenced"

/-- The segment of an argument, if it is the one that comes next. -/
def argument (count expected index : Nat) (spec : Option (List Char)) : Except Decline Segment :=
  if spec = some [] then .error (.emptySpec index)
  else if index ≠ expected then .error (.outOfOrder expected index)
  else if count ≤ index then .error (.missingArgument index count)
  else .ok (.argument index spec)

/-- The segments of the tokens when `expected` arguments were used before them. -/
def fromTokens (count expected : Nat) : List Token → Except Decline (List Segment)
  | [] => if expected < count then .error (.unusedArguments (count - expected)) else .ok []
  | .error :: _ => .error .malformed
  | .text text :: rest => do
    let segments ← fromTokens count expected rest
    return .text text :: segments
  | .argument index :: rest => do
    let segment ← argument count expected index none
    let segments ← fromTokens count (expected + 1) rest
    return segment :: segments
  | .argumentWithSpec index spec :: rest => do
    let segment ← argument count expected index (some spec)
    let segments ← fromTokens count (expected + 1) rest
    return segment :: segments

def plan (format : List Char) (count : Nat) : Except Decline (List Segment) :=
  fromTokens count 0 (tokens format)

/-- A colon outside parentheses would begin the format of the slot. -/
def shielded (e : Expr) : Expr := if e.form.isConditional then .ofForm (.parenthesized e) else e

/-- Fills a plan with arguments; slots without one are left out. -/
def build : List Segment → List Expr → List (Piece Expr)
  | [], _ => []
  | .text text :: rest, args => .text (String.ofList text) :: build rest args
  | .argument _ spec :: rest, e :: args =>
    .interpolation (shielded e) (spec.map String.ofList) :: build rest args
  | .argument _ _ :: rest, [] => build rest []

end OperatorRecovery.FormatPlan
