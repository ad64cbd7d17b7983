import OperatorRecovery.Arguments
import OperatorRecovery.JsonText
import OperatorRecovery.Pass
import OperatorRecovery.SettingsJson
import OperatorRecovery.SourceText
import OperatorRecovery.TreeJson

/-!
What the command line does. A settings file is loaded first, then the language
version is set, then rules are enabled and after that disabled, each in the
order given. The tree is read only after the settings.
-/

namespace OperatorRecovery

/-- How a file name is turned into contents, where there is a file. -/
abbrev FileSystem := String → Option ByteArray

inductive CommandError
  | usage
  | loadSettings (file : String)
  | readTree (file : String)
  | parseTree (file : String)
  deriving DecidableEq, Repr

namespace CommandError

def message : CommandError → String
  | .usage => "usage: run TREE [--json] | rules, with --settings FILE, --language-version V, " ++
      "--enable RULE, --disable RULE, -v"
  | .loadSettings file => "Error: Failed to load settings: " ++ file
  | .readTree file => "Error: Failed to read tree: " ++ file
  | .parseTree file => "Error: Failed to parse tree: " ++ file

def exitCode : CommandError → UInt32
  | .usage => 2
  | _ => 1

end CommandError

namespace CommandLine

def readText? (files : FileSystem) (file : String) : Option String :=
  (files file).bind String.fromUTF8?

def override (settings : Settings) (options : Options) : Settings :=
  let settings := { settings with
    languageVersion := options.languageVersion.getD settings.languageVersion }
  options.disabled.foldl Settings.disable (options.enabled.foldl Settings.enable settings)

def loadSettings (files : FileSystem) (options : Options) : Except CommandError Settings :=
  match options.settingsFile with
  | none => .ok (override .initial options)
  | some file =>
    match (readText? files file).bind Serialized.read? with
    | none => .error (.loadSettings file)
    | some settings => .ok (override settings options)

def loadTree (files : FileSystem) (file : String) : Except CommandError Stmt :=
  match readText? files file with
  | none => .error (.readTree file)
  | some text =>
    match Serialized.read? text with
    | none => .error (.parseTree file)
    | some tree => .ok tree

def spelling (settings : Settings) : Spelling := SpellingStyle.spell ⟨settings.useKeywords, false⟩

/-- The text of a tree, as source or as JSON. -/
def treeText (json : Bool) (tree : Stmt) : String :=
  if json then tree.toJson.pretty ++ "\n" else tree.text

def padded (width : Nat) (text : String) : String :=
  text ++ String.ofList (List.replicate (width - text.length) ' ')

def ruleLine (settings : Settings) (rule : Rule) : String :=
  padded 24 rule.name ++ " " ++ padded 8 (if settings.isEnabled rule then "on" else "off") ++ " " ++
    rule.description ++ "\n"

def rulesText (settings : Settings) : String :=
  "Rewrite rules (language version: " ++ settings.languageVersion.title ++ ")\n" ++
    padded 24 "RULE" ++ " " ++ padded 8 "STATUS" ++ " DESCRIPTION\n" ++
    String.join (Rule.all.map (ruleLine settings))

def execute (files : FileSystem) (invocation : Invocation) : Except CommandError String := do
  let settings ← loadSettings files invocation.options
  match invocation.command with
  | .rules => return rulesText settings
  | .run file json =>
    let tree ← loadTree files file
    return treeText json (tree.recover settings (spelling settings))

/-- The files that an invocation reads, if they exist. -/
def filesOf (invocation : Invocation) : List String :=
  invocation.options.settingsFile.toList ++
    match invocation.command with
    | .run file _ => [file]
    | .rules => []

def answer (files : FileSystem) (arguments : List String) : Except CommandError String :=
  match Invocation.parse? arguments with
  | none => .error .usage
  | some invocation => execute files invocation

end CommandLine

end OperatorRecovery
