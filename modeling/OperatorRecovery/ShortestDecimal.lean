/-!
The shortest decimal that reads back as a given binary floating-point number.
A positive number is `mantissa * 2 ^ exponent`; the reals that round to it form
an interval around it, closed exactly when the mantissa is even. The multiples
of a power of ten form a grid, and the coarsest grid with a point in the
interval gives the digits. Of two such points the nearer one is taken.
-/

namespace OperatorRecovery.ShortestDecimal

/-- Which of two equally near decimals is taken. -/
inductive Tie
  | away
  | even
  deriving DecidableEq, Repr

structure Binary where
  mantissa : Nat
  exponent : Int
  /-- At a power of two the numbers below lie twice as close as those above. -/
  closeBelow : Bool
  deriving DecidableEq, Repr

/-- The magnitude of a finite number, from its bit pattern. -/
def Binary.ofFloat (x : Float) : Binary :=
  let bits : Nat := x.toBits.toNat
  let fraction : Nat := bits % 0x10000000000000
  let power : Nat := bits / 0x10000000000000 % 0x800
  if power = 0 then ⟨fraction, -1074, false⟩
  else ⟨fraction + 0x10000000000000, (power : Int) - 1075, decide (fraction = 0 ∧ 1 < power)⟩

structure Decimal where
  digits : Nat
  exponent : Int
  deriving DecidableEq, Repr

/-- A quarter of a binary place, over the denominator shared with `width`. -/
def quarter (b : Binary) (place : Int) : Nat :=
  Nat.pow 2 b.exponent.toNat * Nat.pow 10 (-place).toNat

/-- The distance of two grid points, over the denominator shared with `quarter`. -/
def width (b : Binary) (place : Int) : Nat :=
  4 * Nat.pow 10 place.toNat * Nat.pow 2 (-b.exponent).toNat

/-- Whether a number at this distance still rounds to `b`. -/
def readsBack (b : Binary) (limit distance : Nat) : Bool :=
  if b.mantissa % 2 = 0 then decide (distance ≤ limit) else decide (distance < limit)

/-- Whether the upper of two neighbouring grid points is taken, when the number
lies `gap` above the lower one. -/
def Tie.prefersUpper (tie : Tie) (lower gap width : Nat) : Bool :=
  match tie with
  | .away => decide (width ≤ 2 * gap)
  | .even => decide (width < 2 * gap ∨ width = 2 * gap ∧ lower % 2 = 1)

/-- The decimal on the grid of `10 ^ place` that reads back as `b`, if there is one. -/
def onGrid (tie : Tie) (b : Binary) (place : Int) : Option Decimal :=
  let value := 4 * b.mantissa * quarter b place
  let lower := value / width b place
  let gap := value % width b place
  let lowerReads := readsBack b ((if b.closeBelow then 1 else 2) * quarter b place) gap
  let upperReads := readsBack b (2 * quarter b place) (width b place - gap)
  match lowerReads, upperReads with
  | true, true =>
    some ⟨if tie.prefersUpper lower gap (width b place) then lower + 1 else lower, place⟩
  | true, false => some ⟨lower, place⟩
  | false, true => some ⟨lower + 1, place⟩
  | false, false => none

/-- Every finite number lies below `10 ^ 309`, and a grid finer than a quarter of
its last binary place has a point near it, so one of these grids has a hit. -/
def places : List Int := (List.range 650).map fun k : Nat => 309 - (k : Int)

def shortest (tie : Tie) (b : Binary) : Decimal :=
  (places.findSome? (onGrid tie b)).getD ⟨0, 0⟩

end OperatorRecovery.ShortestDecimal
