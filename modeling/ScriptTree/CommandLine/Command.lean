import ScriptTree.Grammar.Rules

/-! # Commands

What can be asked for on the command line, and how the arguments ask for it. Flags and options may
stand among the other arguments of a command, and after `--` everything is taken as it is. -/
set_option autoImplicit false
namespace ScriptTree

inductive TreeFormat where
  | text
  | json
  deriving DecidableEq, Repr, Inhabited

def TreeFormat.ofName? : String → Option TreeFormat
  | "text" => some text
  | "json" => some json
  | _ => none

inductive Command where
  | check (paths : List String)
  | tree (path : String) (format : TreeFormat) (rule : Rule)
  | tokens (path : String)
  | matchSnippet (rule : Rule) (snippet : String)
  deriving DecidableEq, Repr

inductive UsageError where
  | missingCommand
  | unknownCommand (word : String)
  | unknownFlag (word : String)
  | repeatedOption (name : String)
  | missingValue (name : String)
  | missingArgument
  | unexpectedArgument (word : String)
  | unknownFormat (name : String)
  | unknownRule (error : UnknownRule)
  deriving DecidableEq, Repr

def UsageError.message : UsageError → String
  | .missingCommand => "a command is required: check, tree, tokens or match"
  | .unknownCommand word => "unrecognized command `" ++ word ++ "`"
  | .unknownFlag word => "unexpected argument `" ++ word ++ "`"
  | .repeatedOption name => "`" ++ name ++ "` cannot be used multiple times"
  | .missingValue name => "a value is required for `" ++ name ++ "`"
  | .missingArgument => "an argument is missing"
  | .unexpectedArgument word => "unexpected argument `" ++ word ++ "`"
  | .unknownFormat name => "unknown format `" ++ name ++ "`"
  | .unknownRule error => error.message

/-! ## Arguments -/

/-- The arguments of a command, sorted: values in order, and the options that were given. -/
structure Arguments where
  values : List String
  verbose : Bool
  format : Option TreeFormat
  rule : Option Rule
  deriving DecidableEq, Repr

namespace Arguments

def empty : Arguments := ⟨[], false, none, none⟩

def addValue (arguments : Arguments) (value : String) : Arguments :=
  { arguments with values := arguments.values ++ [value] }

def setVerbose (arguments : Arguments) : Except UsageError Arguments :=
  if arguments.verbose then .error (.repeatedOption "--verbose")
  else .ok { arguments with verbose := true }

def setFormat (arguments : Arguments) (name : String) : Except UsageError Arguments :=
  match arguments.format, TreeFormat.ofName? name with
  | some _, _ => .error (.repeatedOption "--format")
  | none, some format => .ok { arguments with format := some format }
  | none, none => .error (.unknownFormat name)

def setRule (arguments : Arguments) (name : String) : Except UsageError Arguments :=
  match arguments.rule, Rule.ofName name with
  | some _, _ => .error (.repeatedOption "--rule")
  | none, .ok rule => .ok { arguments with rule := some rule }
  | none, .error error => .error (.unknownRule error)

def setOption (arguments : Arguments) (hasOptions : Bool) (name value : String) :
    Except UsageError Arguments :=
  if hasOptions && name == "--format" then arguments.setFormat value
  else if hasOptions && name == "--rule" then arguments.setRule value
  else .error (.unknownFlag name)

end Arguments

/-- Whether an argument looks like a flag; a lone hyphen does not. -/
def isFlag (word : String) : Bool := word.startsWith "-" && word != "-"

def splitOption (word : String) : Option (String × String) :=
  let characters := word.toList
  if word.startsWith "--" && characters.contains '=' then
    some (String.ofList (characters.takeWhile (· != '=')),
      String.ofList ((characters.dropWhile (· != '=')).drop 1))
  else none

/-- Sorts the arguments of a command; `hasOptions` says whether it takes `--format` and `--rule`. -/
def sortArguments (hasOptions : Bool) : Arguments → List String → Except UsageError Arguments
  | sorted, [] => .ok sorted
  | sorted, "--" :: rest => .ok (rest.foldl Arguments.addValue sorted)
  | sorted, word :: rest =>
      if !isFlag word then sortArguments hasOptions (sorted.addValue word) rest
      else if word = "-v" ∨ word = "--verbose" then
        match sorted.setVerbose with
        | .ok next => sortArguments hasOptions next rest
        | .error error => .error error
      else
        match splitOption word with
        | some (name, value) =>
            match sorted.setOption hasOptions name value with
            | .ok next => sortArguments hasOptions next rest
            | .error error => .error error
        | none =>
            if hasOptions = false ∨ (word ≠ "--format" ∧ word ≠ "--rule") then
              .error (.unknownFlag word)
            else
              match rest with
              | [] => .error (.missingValue word)
              | value :: rest =>
                  if isFlag value then .error (.missingValue word)
                  else
                    match sorted.setOption hasOptions word value with
                    | .ok next => sortArguments hasOptions next rest
                    | .error error => .error error

/-! ## Commands -/

/-- The values of a command that takes exactly so many. -/
def exactly (count : Nat) (values : List String) : Except UsageError (List String) :=
  match values.drop count with
  | extra :: _ => .error (.unexpectedArgument extra)
  | [] => if values.length < count then .error .missingArgument else .ok values

namespace Command

def ofArguments (name : String) (arguments : List String) : Except UsageError Command :=
  match name with
  | "check" => do
      let sorted ← sortArguments false .empty arguments
      if sorted.values.isEmpty then throw .missingArgument
      return check sorted.values
  | "tree" => do
      let sorted ← sortArguments true .empty arguments
      let values ← exactly 1 sorted.values
      return tree (values.headD "") (sorted.format.getD .text) (sorted.rule.getD .script)
  | "tokens" => do
      let sorted ← sortArguments false .empty arguments
      let values ← exactly 1 sorted.values
      return tokens (values.headD "")
  | "match" => do
      let sorted ← sortArguments false .empty arguments
      let values ← exactly 2 sorted.values
      match Rule.ofName (values.headD "") with
      | .ok rule => return matchSnippet rule ((values.drop 1).headD "")
      | .error error => throw (.unknownRule error)
  | word => .error (.unknownCommand word)

/-- The command that a whole command line asks for; `--verbose` may stand before it, once. -/
def ofWords : List String → Except UsageError Command
  | [] => .error .missingCommand
  | word :: rest =>
      if word = "-v" ∨ word = "--verbose" then
        match rest with
        | [] => .error .missingCommand
        | name :: arguments =>
            if isFlag name then .error (.unknownFlag name) else ofArguments name arguments
      else if isFlag word then .error (.unknownFlag word)
      else ofArguments word rest

def paths : Command → List String
  | check paths => paths
  | tree path _ _ => [path]
  | tokens path => [path]
  | matchSnippet _ _ => []

end Command
end ScriptTree
