import OperatorRecovery.Characters

/-!
The body of a string or character literal. Every control character leaves as
an escape, so a literal stays on the line it starts on. Literal text inside an
interpolated string doubles its braces after escaping.
-/

namespace OperatorRecovery.LiteralText

open Characters

/-- The last four hexadecimal digits of `n`. -/
def fourHexDigits (n : Nat) : List Char :=
  [Nat.digitChar (n / 4096 % 16), Nat.digitChar (n / 256 % 16), Nat.digitChar (n / 16 % 16),
    Nat.digitChar (n % 16)]

def escapeChar (c : Char) : List Char :=
  match c with
  | '"' => ['\\', '"']
  | '\\' => ['\\', '\\']
  | '\n' => ['\\', 'n']
  | '\r' => ['\\', 'r']
  | '\t' => ['\\', 't']
  | '\x00' => ['\\', '0']
  | c => if isControl c then '\\' :: 'u' :: fourHexDigits c.toNat else [c]

def escapeChars (cs : List Char) : List Char := cs.flatMap escapeChar

def doubleBrace (c : Char) : List Char :=
  if c = '{' ∨ c = '}' then [c, c] else [c]

def doubleBraces (cs : List Char) : List Char := cs.flatMap doubleBrace

def escape (s : String) : String := String.ofList (escapeChars s.toList)

def escapeInterpolated (s : String) : String :=
  String.ofList (doubleBraces (escapeChars s.toList))

theorem doubleBraces_append (xs ys : List Char) :
    doubleBraces (xs ++ ys) = doubleBraces xs ++ doubleBraces ys := by
  simp [doubleBraces]

end OperatorRecovery.LiteralText
