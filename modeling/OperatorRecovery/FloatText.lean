import OperatorRecovery.ShortestDecimal

/-!
Floating-point numbers as text, in source code and in JSON. Source code is
always positional: whole numbers in full with one zero after the point, others
with their shortest digits. JSON is positional from `0.00001` up to sixteen
places before the point and uses an exponent beyond, which always has a sign.
-/

namespace OperatorRecovery.FloatText

open ShortestDecimal

def zeros (n : Nat) : List Char := List.replicate n '0'

def isNegative (x : Float) : Bool := x.toBits.toNat / 0x8000000000000000 = 1

def signed (x : Float) (text : List Char) : List Char :=
  if isNegative x then '-' :: text else text

/-- The whole number that a magnitude equals, if it has no fraction. -/
def whole? (b : Binary) : Option Nat :=
  if 0 ≤ b.exponent then some (b.mantissa * Nat.pow 2 b.exponent.toNat)
  else
    let unit := Nat.pow 2 (-b.exponent).toNat
    if b.mantissa % unit = 0 then some (b.mantissa / unit) else none

/-- How many digits stand before the point when a decimal is written out. -/
def pointPosition (d : Decimal) : Int := (Nat.toDigits 10 d.digits).length + d.exponent

def positional (d : Decimal) : List Char :=
  let digits := Nat.toDigits 10 d.digits
  let point := pointPosition d
  if 0 ≤ d.exponent then digits ++ zeros d.exponent.toNat ++ ['.', '0']
  else if 0 < point then digits.take point.toNat ++ '.' :: digits.drop point.toNat
  else ['0', '.'] ++ zeros (-point).toNat ++ digits

def exponentPart (power : Int) : List Char :=
  'e' :: (if power < 0 then '-' else '+') :: Nat.toDigits 10 power.natAbs

def scientific (d : Decimal) : List Char :=
  let tail := exponentPart (pointPosition d - 1)
  match Nat.toDigits 10 d.digits with
  | [] => tail
  | [c] => c :: tail
  | c :: rest => c :: '.' :: rest ++ tail

/-- The text of a floating-point literal in source code. -/
def source (x : Float) : String :=
  if x.isNaN then "NaN"
  else if x.isInf then if isNegative x then "-inf" else "inf"
  else
    let b := Binary.ofFloat x
    String.ofList <| signed x <|
      match whole? b with
      | some n => Nat.toDigits 10 n ++ ['.', '0']
      | none => positional (shortest .away b)

/-- The text of a finite number in JSON. -/
def json (x : Float) : String :=
  let d := shortest .even (Binary.ofFloat x)
  let point := pointPosition d
  String.ofList <| signed x <|
    if x.toBits.toNat % 0x8000000000000000 = 0 then ['0', '.', '0']
    else if -5 < point ∧ point ≤ 16 then positional d
    else scientific d

end OperatorRecovery.FloatText
