import OperatorRecovery.Characters
import OperatorRecovery.QuotedText
import OperatorRecovery.ResolvedType

/-!
Reading a resolved type from its text. The text is split into names and marks;
narrow blanks may stand between any two of them. A small pushdown reader then
takes one lexeme at a time. It keeps the generic types whose argument lists are
open, innermost first, and what it has read of the current type. A wide blank
cannot be stepped over, so reading breaks off there.
-/

namespace OperatorRecovery

inductive TypeTextError
  | invalidName (text : String)
  | unbalancedArguments (text : String)
  /-- Reading reached a blank that takes several bytes. -/
  | wideBlank
  deriving DecidableEq, Repr

def TypeTextError.message : TypeTextError → String
  | .invalidName text => "invalid type name: " ++ QuotedText.quote text
  | .unbalancedArguments text => "unbalanced generic arguments in " ++ QuotedText.quote text
  | .wideBlank => "blank of several bytes in a type name"

namespace TypeReader

open Characters

inductive Lexeme
  | name (text : List Char)
  | mark (c : Char)
  | wideBlank
  deriving DecidableEq, Repr

def isNameChar (c : Char) : Bool :=
  isAlphanumeric c || c = '_' || c = '.' || c = '\x60'

/-- A name read so far, in reverse, in front of further lexemes. -/
def closeName (pending : List Char) (rest : List Lexeme) : List Lexeme :=
  if pending.isEmpty then rest else .name pending.reverse :: rest

def lexemesFrom : List Char → List Char → List Lexeme
  | pending, [] => closeName pending []
  | pending, c :: rest =>
    if isNameChar c then lexemesFrom (c :: pending) rest
    else closeName pending <|
      if isNarrowBlank c then lexemesFrom [] rest
      else if isWideBlank c then .wideBlank :: lexemesFrom [] rest
      else .mark c :: lexemesFrom [] rest

def lexemes (text : List Char) : List Lexeme := lexemesFrom [] text

/-- A dotted name split at its last dot. -/
def splitName (dotted : List Char) : String × String :=
  let front := (dotted.reverse.dropWhile (· ≠ '.')).drop 1
  (String.ofList front.reverse, String.ofList (ResolvedType.lastSegment dotted))

def isWellFormedName (dotted : List Char) : Bool :=
  !dotted.isEmpty && dotted.head? != some '.' && dotted.getLast? != some '.'

inductive Fault
  | invalidName
  | unbalancedArguments
  | wideBlank
  deriving DecidableEq, Repr

/-- A generic type with the arguments read so far, in reverse. -/
structure Enclosing where
  «namespace» : String
  name : String
  arguments : List ResolvedType

inductive Current
  /-- A type has to begin. -/
  | start
  /-- A name, which may still take arguments. -/
  | named («namespace» name : String)
  /-- A type that may take brackets and reference marks. -/
  | complete (type : ResolvedType)
  /-- A type that takes no suffix. -/
  | closed (type : ResolvedType)
  /-- Open brackets with their rank so far. -/
  | brackets (element : ResolvedType) (rank : UInt32)

structure State where
  enclosing : List Enclosing
  current : Current

def begin : State := ⟨[], .start⟩

/-- The lexeme behind a finished type belongs to the list around it. -/
def afterType (enclosing : List Enclosing) (type : ResolvedType) (lexeme : Lexeme) :
    Except Fault State :=
  match enclosing with
  | [] => .error .invalidName
  | e :: outer =>
    match lexeme with
    | .mark ',' => .ok ⟨{ e with arguments := type :: e.arguments } :: outer, .start⟩
    | .mark '>' =>
      .ok ⟨outer, .complete (.named e.namespace e.name (type :: e.arguments).reverse)⟩
    | _ => .error .unbalancedArguments

def suffix (enclosing : List Enclosing) (type : ResolvedType) (lexeme : Lexeme) :
    Except Fault State :=
  match lexeme with
  | .mark '[' => .ok ⟨enclosing, .brackets type 1⟩
  | .mark '&' => .ok ⟨enclosing, .complete (.byRef type)⟩
  | lexeme => afterType enclosing type lexeme

def step (state : State) (lexeme : Lexeme) : Except Fault State :=
  if lexeme = .wideBlank then .error .wideBlank
  else match state.current with
    | .start =>
      match lexeme with
      | .mark '?' => .ok ⟨state.enclosing, .closed .unknown⟩
      | .name text =>
        if isWellFormedName text then
          .ok ⟨state.enclosing, .named (splitName text).1 (splitName text).2⟩
        else .error .invalidName
      | _ => .error .invalidName
    | .named ns name =>
      match lexeme with
      | .mark '<' => .ok ⟨⟨ns, name, []⟩ :: state.enclosing, .start⟩
      | lexeme => suffix state.enclosing (.named ns name []) lexeme
    | .complete type => suffix state.enclosing type lexeme
    | .closed type => afterType state.enclosing type lexeme
    | .brackets element rank =>
      match lexeme with
      | .mark ',' => .ok ⟨state.enclosing, .brackets element (rank + 1)⟩
      | .mark ']' => .ok ⟨state.enclosing, .complete (.array element rank)⟩
      | _ => .error .invalidName

def whole (enclosing : List Enclosing) (type : ResolvedType) : Except Fault ResolvedType :=
  if enclosing.isEmpty then .ok type else .error .unbalancedArguments

def finish (state : State) : Except Fault ResolvedType :=
  match state.current with
  | .start | .brackets _ _ => .error .invalidName
  | .named ns name => whole state.enclosing (.named ns name [])
  | .complete type | .closed type => whole state.enclosing type

def run : State → List Lexeme → Except Fault ResolvedType
  | state, [] => finish state
  | state, lexeme :: rest =>
    match step state lexeme with
    | .ok next => run next rest
    | .error fault => .error fault

end TypeReader

def ResolvedType.ofText (text : String) : Except TypeTextError ResolvedType :=
  match TypeReader.run TypeReader.begin (TypeReader.lexemes text.toList) with
  | .ok type => .ok type
  | .error .invalidName => .error (.invalidName text)
  | .error .unbalancedArguments => .error (.unbalancedArguments text)
  | .error .wideBlank => .error .wideBlank

end OperatorRecovery
