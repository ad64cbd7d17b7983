/-!
Composite-format strings. Text stands for itself with braces doubled, and
`{index}` or `{index:spec}` refers to an argument. Splitting stops at the first
construct that is not of this form and ends the tokens with an error there.
-/

namespace OperatorRecovery.CompositeFormat

inductive Token
  | text (text : List Char)
  | argument (index : Nat)
  | argumentWithSpec (index : Nat) (spec : List Char)
  | error
  deriving DecidableEq, Repr

/-- The number that digits spell; it must fit into 64 bits. -/
def index? (digits : List Char) : Option Nat :=
  if digits.isEmpty || !digits.all Char.isDigit then none
  else
    let n := digits.foldl (fun n c => 10 * n + (c.toNat - 48)) 0
    if n < 0x10000000000000000 then some n else none

def argumentToken? (digits : List Char) (spec : Option (List Char)) : Option Token :=
  (index? digits).map fun i =>
    match spec with
    | none => .argument i
    | some spec => .argumentWithSpec i spec

/-- Where a scan stands. What was read of the current piece is kept in reverse. -/
inductive Place
  | text (read : List Char)
  | index (read : List Char)
  | spec (index read : List Char)

def closeText (read : List Char) (rest : List Token) : List Token :=
  if read.isEmpty then rest else .text read.reverse :: rest

def scan : Place → List Char → List Token
  | .text read, [] => closeText read []
  | .text read, '{' :: '{' :: rest => scan (.text ('{' :: read)) rest
  | .text read, '}' :: '}' :: rest => scan (.text ('}' :: read)) rest
  | .text read, '{' :: rest => closeText read (scan (.index []) rest)
  | .text _, '}' :: _ => [.error]
  | .text read, c :: rest => scan (.text (c :: read)) rest
  | .index _, [] => [.error]
  | .index _, '{' :: _ => [.error]
  | .index read, ':' :: rest => scan (.spec read []) rest
  | .index read, '}' :: rest =>
    match argumentToken? read.reverse none with
    | some token => token :: scan (.text []) rest
    | none => [.error]
  | .index read, c :: rest => scan (.index (c :: read)) rest
  | .spec _ _, [] => [.error]
  | .spec _ _, '{' :: _ => [.error]
  | .spec index read, '}' :: rest =>
    match argumentToken? index.reverse (some read.reverse) with
    | some token => token :: scan (.text []) rest
    | none => [.error]
  | .spec index read, c :: rest => scan (.spec index (c :: read)) rest

def tokens (format : List Char) : List Token := scan (.text []) format

end OperatorRecovery.CompositeFormat
