import OperatorRecovery.Characters

/-!
Text in double quotes for messages. Line feeds, carriage returns, tabs, NUL,
quotes and backslashes have short escapes; any other character that is not
visible by itself is written as its number in hexadecimal.
-/

namespace OperatorRecovery.QuotedText

open Characters

def hexadecimal (n : Nat) : List Char := Nat.toDigits 16 n

def quoteChar (c : Char) : List Char :=
  match c with
  | '"' => ['\\', '"']
  | '\\' => ['\\', '\\']
  | '\n' => ['\\', 'n']
  | '\r' => ['\\', 'r']
  | '\t' => ['\\', 't']
  | '\x00' => ['\\', '0']
  | c =>
    if isPrintable c && !joinsPrevious c then [c]
    else ['\\', 'u', '{'] ++ hexadecimal c.toNat ++ ['}']

def quote (s : String) : String :=
  String.ofList ('"' :: (s.toList.flatMap quoteChar ++ ['"']))

end OperatorRecovery.QuotedText
