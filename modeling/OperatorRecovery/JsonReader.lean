import OperatorRecovery.Json

/-!
Reading JSON text in two passes over lists. The first splits the characters
into tokens, the second builds values on a stack of open arrays and objects.
Both advance by one element at a time, so neither needs a bound on its input.
-/

namespace OperatorRecovery.JsonReader

inductive Token
  | openArray
  | closeArray
  | openObject
  | closeObject
  | comma
  | colon
  /-- A string, or none where its escapes form half a surrogate pair. -/
  | string (value : Option String)
  | scalar (value : Json)

def isSpace (c : Char) : Bool := c = ' ' || c = '\t' || c = '\n' || c = '\r'

/-- Digits are taken while the number they spell fits into 64 bits. -/
def absorb : Nat → List Char → Nat × List Char
  | n, [] => (n, [])
  | n, c :: rest =>
    let next := 10 * n + (c.toNat - 48)
    if next < 0x10000000000000000 then absorb next rest else (n, c :: rest)

def powerOfTen (n : Nat) : Float := Float.ofScientific 1 false n

/-- A significand below `2 ^ 64` times a power of ten, by one multiplication or
division for each 308 places. There is no result above the largest double. -/
def scale (significand : Nat) (exponent : Int) : Option Float :=
  let x := significand.toUInt64.toFloat
  if significand = 0 then some 0.0
  else if 308 < exponent then none
  else if 0 ≤ exponent then
    let y := x * powerOfTen exponent.toNat
    if y.isInf then none else some y
  else if -308 ≤ exponent then some (x / powerOfTen (-exponent).toNat)
  else if -616 ≤ exponent then some (x / powerOfTen 308 / powerOfTen (-exponent - 308).toNat)
  else some 0.0

def naturalOf (digits : List Char) : Nat := digits.foldl (fun n c => 10 * n + (c.toNat - 48)) 0

/-- Whole digits that do not fit raise the exponent; digits of the fraction
lower it as far as they are taken. -/
def floatOf (negative : Bool) (whole fraction : List Char) (exponent : Int) : Json :=
  let (head, dropped) := absorb 0 whole
  let (significand, unused) := absorb head fraction
  let power := exponent + dropped.length - (fraction.length - unused.length : Nat)
  match scale significand power with
  | none => .unreadable
  | some x => .float (if negative then -x else x)

/-- The exponent after its letter: an optional sign and at least one digit. -/
def exponentOf (text : List Char) : Option Int :=
  let (negative, digits) := match text with
    | '-' :: rest => (true, rest)
    | '+' :: rest => (false, rest)
    | rest => (false, rest)
  if digits.isEmpty || !digits.all Char.isDigit then none
  else some (if negative then -(naturalOf digits : Int) else naturalOf digits)

def isExponentMark (c : Char) : Bool := c = 'e' || c = 'E'

def unsignedNumber (negative : Bool) (text : List Char) : Option Json :=
  let whole := text.takeWhile Char.isDigit
  let rest := text.dropWhile Char.isDigit
  if whole.isEmpty || (whole.head? = some '0' && 1 < whole.length) then none
  else match rest with
    | [] =>
      let n := naturalOf whole
      if negative then
        if n ≠ 0 ∧ n ≤ 0x8000000000000000 then some (.int (-(n : Int)))
        else some (floatOf true whole [] 0)
      else if n < 0x10000000000000000 then some (.int n) else some (floatOf false whole [] 0)
    | '.' :: rest =>
      let fraction := rest.takeWhile Char.isDigit
      if fraction.isEmpty then none
      else match rest.dropWhile Char.isDigit with
        | [] => some (floatOf negative whole fraction 0)
        | c :: tail =>
          if isExponentMark c then (exponentOf tail).map (floatOf negative whole fraction)
          else none
    | c :: tail =>
      if isExponentMark c then (exponentOf tail).map (floatOf negative whole []) else none

/-- The value of a run of characters outside strings and punctuation. -/
def word (text : List Char) : Option Json :=
  if text = ['n', 'u', 'l', 'l'] then some .null
  else if text = ['t', 'r', 'u', 'e'] then some (.bool true)
  else if text = ['f', 'a', 'l', 's', 'e'] then some (.bool false)
  else match text with
    | '-' :: rest => unsignedNumber true rest
    | text => unsignedNumber false text

/-- Code units of a string, with the two halves of each pair joined. -/
def joinPairs : List Nat → Option (List Char)
  | [] => some []
  | high :: low :: rest =>
    if 0xd800 ≤ high ∧ high < 0xdc00 ∧ 0xdc00 ≤ low ∧ low < 0xe000 then
      (joinPairs rest).map
        (Char.ofNat (0x10000 + (high - 0xd800) * 0x400 + (low - 0xdc00)) :: ·)
    else if 0xd800 ≤ high ∧ high < 0xe000 then none
    else (joinPairs (low :: rest)).map (Char.ofNat high :: ·)
  | [unit] => if 0xd800 ≤ unit ∧ unit < 0xe000 then none else some [Char.ofNat unit]

def hexValue (c : Char) : Option Nat :=
  if c.isDigit then some (c.toNat - 48)
  else if 'a' ≤ c ∧ c ≤ 'f' then some (c.toNat - 87)
  else if 'A' ≤ c ∧ c ≤ 'F' then some (c.toNat - 55)
  else none

/-- Where the splitting stands. Units and words are kept in reverse. -/
inductive Place
  | outside
  | inWord (text : List Char)
  | inString (units : List Nat)
  | afterBackslash (units : List Nat)
  | inEscape (units : List Nat) (left : Nat) (value : Nat)

structure Lexer where
  place : Place
  /-- The tokens found so far, in reverse. -/
  tokens : List Token

namespace Lexer

def punctuation (c : Char) : Option Token :=
  match c with
  | '[' => some .openArray
  | ']' => some .closeArray
  | '{' => some .openObject
  | '}' => some .closeObject
  | ',' => some .comma
  | ':' => some .colon
  | _ => none

def outside (tokens : List Token) (c : Char) : Lexer :=
  if isSpace c then ⟨.outside, tokens⟩
  else if c = '"' then ⟨.inString [], tokens⟩
  else match punctuation c with
    | some token => ⟨.outside, token :: tokens⟩
    | none => ⟨.inWord [c], tokens⟩

def endsWord (c : Char) : Bool := isSpace c || c = '"' || (punctuation c).isSome

def closeWord (tokens : List Token) (text : List Char) : Option (List Token) :=
  (word text.reverse).map fun value => .scalar value :: tokens

def closeString (tokens : List Token) (units : List Nat) : Lexer :=
  ⟨.outside, .string ((joinPairs units.reverse).map String.ofList) :: tokens⟩

def shortEscape (c : Char) : Option Nat :=
  match c with
  | '"' => some 0x22
  | '\\' => some 0x5c
  | '/' => some 0x2f
  | 'b' => some 0x08
  | 'f' => some 0x0c
  | 'n' => some 0x0a
  | 'r' => some 0x0d
  | 't' => some 0x09
  | _ => none

def step (lexer : Lexer) (c : Char) : Option Lexer :=
  match lexer.place with
  | .outside => some (outside lexer.tokens c)
  | .inWord text =>
    if endsWord c then (closeWord lexer.tokens text).map (outside · c)
    else some ⟨.inWord (c :: text), lexer.tokens⟩
  | .inString units =>
    if c = '"' then some (closeString lexer.tokens units)
    else if c = '\\' then some ⟨.afterBackslash units, lexer.tokens⟩
    else if c.toNat < 0x20 then none
    else some ⟨.inString (c.toNat :: units), lexer.tokens⟩
  | .afterBackslash units =>
    if c = 'u' then some ⟨.inEscape units 3 0, lexer.tokens⟩
    else (shortEscape c).map fun unit => ⟨.inString (unit :: units), lexer.tokens⟩
  | .inEscape units left value =>
    (hexValue c).map fun digit =>
      let value := 16 * value + digit
      match left with
      | 0 => ⟨.inString (value :: units), lexer.tokens⟩
      | left + 1 => ⟨.inEscape units left value, lexer.tokens⟩

def finish (lexer : Lexer) : Option (List Token) :=
  match lexer.place with
  | .outside => some lexer.tokens.reverse
  | .inWord text => (closeWord lexer.tokens text).map List.reverse
  | _ => none

end Lexer

def tokens (text : List Char) : Option (List Token) :=
  (text.foldlM Lexer.step ⟨.outside, []⟩).bind Lexer.finish

/-- An open array or object with what it holds so far, in reverse. The contents
of an object are lost once one of its names is unreadable. -/
inductive Frame
  | array (items : List Json)
  | object (fields : Option (List (String × Json))) (name : Option String)

inductive Expected
  | value
  | itemOrClose
  | nameOrClose
  | name
  | colon
  | separator

structure Builder where
  /-- The open arrays and objects, innermost first. -/
  frames : List Frame
  expected : Expected
  result : Option Json

namespace Builder

def start : Builder := ⟨[], .value, none⟩

/-- Hands a finished value to the innermost open container. -/
def put (frames : List Frame) (value : Json) : Builder :=
  match frames with
  | [] => ⟨[], .separator, some value⟩
  | .array items :: outer => ⟨.array (value :: items) :: outer, .separator, none⟩
  | .object fields name :: outer =>
    let fields := do return (← name, value) :: (← fields)
    ⟨.object fields none :: outer, .separator, none⟩

def openValue (frames : List Frame) : Token → Option Builder
  | .openArray => some ⟨.array [] :: frames, .itemOrClose, none⟩
  | .openObject => some ⟨.object (some []) none :: frames, .nameOrClose, none⟩
  | .string (some s) => some (put frames (.string s))
  | .string none => some (put frames .unreadable)
  | .scalar value => some (put frames value)
  | _ => none

def close (frames : List Frame) (token : Token) : Option Builder :=
  match token, frames with
  | .closeArray, .array items :: outer => some (put outer (.array items.reverse))
  | .closeObject, .object (some fields) _ :: outer => some (put outer (.object fields.reverse))
  | .closeObject, .object none _ :: outer => some (put outer .unreadable)
  | _, _ => none

def readName (frames : List Frame) (name : Option String) : Option Builder :=
  match frames with
  | .object fields _ :: outer => some ⟨.object fields name :: outer, .colon, none⟩
  | _ => none

def step (builder : Builder) (token : Token) : Option Builder :=
  match builder.expected, token with
  | .value, token => openValue builder.frames token
  | .itemOrClose, .closeArray => close builder.frames .closeArray
  | .itemOrClose, token => openValue builder.frames token
  | .nameOrClose, .closeObject => close builder.frames .closeObject
  | .nameOrClose, .string name => readName builder.frames name
  | .name, .string name => readName builder.frames name
  | .colon, .colon => some ⟨builder.frames, .value, none⟩
  | .separator, .comma =>
    match builder.frames with
    | .array _ :: _ => some ⟨builder.frames, .value, none⟩
    | .object _ _ :: _ => some ⟨builder.frames, .name, none⟩
    | [] => none
  | .separator, token => close builder.frames token
  | _, _ => none

end Builder

/-- The value that a whole text spells. -/
def read (text : String) : Option Json := do
  let builder ← (← tokens text.toList).foldlM Builder.step Builder.start
  builder.result

end OperatorRecovery.JsonReader
