import OperatorRecovery.Settings

/-!
Command-line arguments. The first plain argument names the command; options may
follow it in any order, and `-v` may stand anywhere. An option with a value
takes it after an equals sign, right behind its letter, or from the next
argument, which must not look like an option itself. After `--` every argument
is plain. Options that take one value can be given once.
-/

namespace OperatorRecovery

inductive Command
  | run (tree : String) (json : Bool)
  | rules

/-- What the options ask for, in the order given. -/
structure Options where
  settingsFile : Option String
  languageVersion : Option LanguageVersion
  enabled : List Rule
  disabled : List Rule

structure Invocation where
  command : Command
  options : Options

namespace Arguments

inductive Keyword
  | run
  | rules
  deriving DecidableEq, Repr

inductive ValueOption
  | settings
  | languageVersion
  | enable
  | disable
  deriving DecidableEq, Repr

/-- What is known after some arguments. -/
structure State where
  keyword : Option Keyword
  plain : List String
  json : Bool
  options : Options
  /-- The option whose value has to come next. -/
  awaiting : Option ValueOption
  /-- A `--` has been read. -/
  plainOnly : Bool

def start : State := ⟨none, [], false, ⟨none, none, [], []⟩, none, false⟩

def setValue (state : State) (option : ValueOption) (value : String) : Option State :=
  let options := state.options
  match option with
  | .settings =>
    if options.settingsFile.isSome || value.isEmpty then none
    else some { state with options := { options with settingsFile := some value } }
  | .languageVersion =>
    if options.languageVersion.isSome then none
    else (LanguageVersion.parse? value).map fun version =>
      { state with options := { options with languageVersion := some version } }
  | .enable => (Rule.parse? value).map fun rule =>
      { state with options := { options with enabled := options.enabled ++ [rule] } }
  | .disable => (Rule.parse? value).map fun rule =>
      { state with options := { options with disabled := options.disabled ++ [rule] } }

/-- A plain argument is the command first, then the tree to run on. -/
def addPlain (state : State) (argument : String) : Option State :=
  match state.keyword with
  | none =>
    if state.plainOnly then none
    else if argument = "run" then some { state with keyword := some .run }
    else if argument = "rules" then some { state with keyword := some .rules }
    else none
  | some .run =>
    if state.plain.isEmpty && !argument.isEmpty then some { state with plain := [argument] }
    else none
  | some .rules => none

def setJson (state : State) : Option State :=
  if state.keyword = some .run && !state.json then some { state with json := true } else none

def valueOption? (name : List Char) : Option ValueOption :=
  if name = "settings".toList then some .settings
  else if name = "language-version".toList then some .languageVersion
  else if name = "enable".toList then some .enable
  else if name = "disable".toList then some .disable
  else none

/-- An option written out, without its two hyphens. -/
def long (state : State) (text : List Char) : Option State :=
  let name := text.takeWhile (· ≠ '=')
  match text.dropWhile (· ≠ '='), valueOption? name with
  | _ :: value, some option =>
    if state.keyword.isSome then setValue state option (String.ofList value) else none
  | [], some option =>
    if state.keyword.isSome then some { state with awaiting := some option } else none
  | [], none =>
    if name = "verbose".toList then some state
    else if name = "json".toList then setJson state
    else none
  | _ :: _, none => none

def letterOption? (c : Char) : Option ValueOption :=
  match c with
  | 's' => some .settings
  | 'l' => some .languageVersion
  | _ => none

/-- Letters behind one hyphen. The value of an option takes up the rest. -/
def short (state : State) : List Char → Option State
  | [] => some state
  | c :: rest =>
    if c = 'v' then short state rest
    else if state.keyword.isSome then
      match letterOption? c, rest with
      | some option, [] => some { state with awaiting := some option }
      | some option, '=' :: value => setValue state option (String.ofList value)
      | some option, value => setValue state option (String.ofList value)
      | none, _ => none
    else none

def looksLikeOption (argument : List Char) : Bool :=
  argument.head? = some '-' && 1 < argument.length

def step (state : State) (argument : String) : Option State :=
  if state.plainOnly then addPlain state argument
  else match state.awaiting with
    | some option =>
      if looksLikeOption argument.toList then none
      else setValue { state with awaiting := none } option argument
    | none =>
      match argument.toList with
      | ['-', '-'] => some { state with plainOnly := true }
      | '-' :: '-' :: name => long state name
      | '-' :: c :: letters => short state (c :: letters)
      | _ => addPlain state argument

def finish (state : State) : Option Invocation :=
  match state.awaiting, state.keyword, state.plain with
  | none, some .run, [tree] => some ⟨.run tree state.json, state.options⟩
  | none, some .rules, [] => some ⟨.rules, state.options⟩
  | _, _, _ => none

end Arguments

/-- The invocation that arguments spell, or none if they are used wrongly. -/
def Invocation.parse? (arguments : List String) : Option Invocation :=
  (arguments.foldlM Arguments.step Arguments.start).bind Arguments.finish

end OperatorRecovery
