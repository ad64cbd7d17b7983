import OperatorRecovery.Symbol

/-!
Annotations of syntax nodes, in the order in which they were attached. Later
annotations never hide earlier ones: of several symbols or types the first
counts, while instruction ranges add up.
-/

namespace OperatorRecovery

/-- A half-open range of instruction offsets. -/
structure InstructionRange where
  start : UInt32
  stop : UInt32
  deriving DecidableEq, Repr

inductive Annotation
  | symbol (symbol : Symbol)
  | instructions (ranges : List InstructionRange)
  | resolvedType (type : ResolvedType)
  /-- The node was produced by a metadata token load. -/
  | loadToken

abbrev Annotations := List Annotation

namespace Annotations

def symbol? : Annotations → Option Symbol
  | [] => none
  | .symbol s :: _ => some s
  | _ :: rest => symbol? rest

def method? (as : Annotations) : Option Method :=
  match symbol? as with
  | some (.method m) => some m
  | _ => none

def field? (as : Annotations) : Option Field :=
  match symbol? as with
  | some (.field f) => some f
  | _ => none

def resolvedType? : Annotations → Option ResolvedType
  | [] => none
  | .resolvedType t :: _ => some t
  | _ :: rest => resolvedType? rest

def isLoadToken : Annotation → Bool
  | .loadToken => true
  | _ => false

def hasLoadToken (as : Annotations) : Bool := as.any isLoadToken

def instructions : Annotations → List InstructionRange
  | [] => []
  | .instructions ranges :: rest => ranges ++ instructions rest
  | _ :: rest => instructions rest

/-- One annotation for the given ranges, or none if there are no ranges. -/
def ofInstructions (ranges : List InstructionRange) : Annotations :=
  if ranges.isEmpty then [] else [.instructions ranges]

/-- Appends the instruction ranges of `donor` alone. -/
def inheritInstructions (as donor : Annotations) : Annotations :=
  as ++ ofInstructions (instructions donor)

theorem instructions_append (as bs : Annotations) :
    instructions (as ++ bs) = instructions as ++ instructions bs := by
  induction as with
  | nil => rfl
  | cons a as ih => cases a <;> simp [instructions, ih]

theorem instructions_ofInstructions (ranges : List InstructionRange) :
    instructions (ofInstructions ranges) = ranges := by
  cases ranges <;> simp [ofInstructions, instructions]

theorem instructions_inheritInstructions (as donor : Annotations) :
    instructions (inheritInstructions as donor) = instructions as ++ instructions donor := by
  rw [inheritInstructions, instructions_append, instructions_ofInstructions]

theorem symbol?_append (as bs : Annotations) :
    symbol? (as ++ bs) = (symbol? as).or (symbol? bs) := by
  induction as with
  | nil => rfl
  | cons a as ih => cases a <;> simp [symbol?, ih]

/-- Annotations without a method of their own leave the method as it was. -/
theorem method?_append {bs : Annotations} (h : method? bs = none) (as : Annotations) :
    method? (as ++ bs) = method? as := by
  unfold method? at h ⊢
  rw [symbol?_append]
  cases symbol? as with
  | none => simpa using h
  | some s => rfl

/-- A method that is there is not hidden by later annotations. -/
theorem method?_append_of_some {as : Annotations} {method : Method} (h : method? as = some method)
    (bs : Annotations) : method? (as ++ bs) = some method := by
  unfold method? at h ⊢
  rw [symbol?_append]
  cases hsymbol : symbol? as with
  | none => simp [hsymbol] at h
  | some s => simpa [hsymbol] using h

theorem method?_ofInstructions (ranges : List InstructionRange) :
    method? (ofInstructions ranges) = none := by
  cases ranges <;> rfl

theorem method?_append_ofInstructions (as : Annotations) (ranges : List InstructionRange) :
    method? (as ++ ofInstructions ranges) = method? as :=
  method?_append (method?_ofInstructions ranges) as

theorem resolvedType?_append (as bs : Annotations) :
    resolvedType? (as ++ bs) = (resolvedType? as).or (resolvedType? bs) := by
  induction as with
  | nil => rfl
  | cons a as ih => cases a <;> simp [resolvedType?, ih]

theorem hasLoadToken_append (as bs : Annotations) :
    hasLoadToken (as ++ bs) = (hasLoadToken as || hasLoadToken bs) := by
  simp [hasLoadToken]

theorem hasLoadToken_append_of_left {as : Annotations} (h : hasLoadToken as = true)
    (bs : Annotations) : hasLoadToken (as ++ bs) = true := by
  rw [hasLoadToken_append, h, Bool.true_or]

end Annotations

end OperatorRecovery
