import ScriptTree.CommandLine.Command
import ScriptTree.SourceFiles
import ScriptTree.Tree.Dump

/-! # Running commands

A command reads texts and gives a report: an exit code, what goes to standard output, the problems
found, and a summary if files failed. -/
set_option autoImplicit false
namespace ScriptTree

structure Report where
  exitCode : Nat
  output : String
  problems : List String
  summary : Option String
  deriving DecidableEq, Repr

namespace Report

def success (output : String) : Report := ⟨0, output, [], none⟩

def failure (output : String) (problems : List String) : Report := ⟨1, output, problems, none⟩

def usage (error : UsageError) : Report := ⟨2, "", ["error: " ++ error.message], none⟩

/-- A file that cannot be read ends a command, after the problems found so far. -/
def unreadable (problems : List String) (path : String) : Report :=
  failure "" (problems ++ ["Error: failed to read `" ++ path ++ "`"])

end Report

def ParseFailure.describe (failure : ParseFailure) (path : String) (text : List Char) : String :=
  match failure with
  | .syntaxError error => error.diagnostic.render path text
  | other => "error: " ++ other.message

namespace Command

/-- Parses files one after the other. Gives the problems found in them, and the file that could not be
read, if one ended it. -/
def checkFiles (read : String → Option (List Char)) : List String → List String × Option String
  | [] => ([], none)
  | path :: rest =>
      match read path with
      | none => ([], some path)
      | some text =>
          let (problems, unread) := checkFiles read rest
          match (SourceFile.mk path text).parse with
          | .ok _ => (problems, unread)
          | .error failure => (failure.describe path text :: problems, unread)

def runCheck (read : String → Option (List Char)) (paths : List String) : Report :=
  match checkFiles read paths with
  | (problems, some path) => .unreadable problems path
  | ([], none) => .success ""
  | (problems, none) =>
      ⟨1, "", problems,
        some (toString problems.length ++ " of " ++ toString paths.length ++
          " files failed to parse")⟩

def treeOutput (parsed : SyntaxTree) : TreeFormat → String
  | .text => parsed.outline SyntaxTree.root
  | .json => parsed.dump.pretty ++ "\n"

def triviaLines : Nat → List TriviaPiece → List String
  | _, [] => []
  | offset, piece :: rest =>
      ("  " ++ piece.kind.inspect ++ "@" ++ (Span.mk offset (offset + piece.length)).inspect ++ "\n") ::
        triviaLines (offset + piece.length) rest

def tokenLines (text : List Char) (token : Token) : List String :=
  triviaLines token.fullSpan.start token.leading.pieces ++
    [token.kind.name ++ "@" ++ token.span.inspect ++ " " ++ Text.quoted (token.span.sliceOf text) ++
      "\n"] ++
    triviaLines token.span.stop token.trailing.pieces

def runMatch (rule : Rule) (snippet : List Char) : Report :=
  let stream := tokenize snippet
  match matchRule rule (.start stream) with
  | .ok (found, next) =>
      .success (found.outline SyntaxTree.root ++ rule.name ++ " consumed " ++ toString next.position ++
        " of " ++ toString stream.eofIndex ++ " tokens\n")
  | .error _ =>
      .failure (rule.name ++ " does not match\n")
        (match parseStream rule stream with
          | .ok _ => []
          | .error failure => [failure.describe "<snippet>" snippet])

def run (read : String → Option (List Char)) : Command → Report
  | check paths => runCheck read paths
  | tree path format rule =>
      match read path with
      | none => .unreadable [] path
      | some text =>
          match parseText rule text with
          | .ok parsed => .success (treeOutput parsed format)
          | .error failure => .failure "" [failure.describe path text]
  | tokens path =>
      match read path with
      | none => .unreadable [] path
      | some text =>
          .success (String.join ((tokenize text).tokens.toList.flatMap (tokenLines text)))
  | matchSnippet rule snippet => runMatch rule snippet.toList

def report (read : String → Option (List Char)) (words : List String) : Report :=
  match ofWords words with
  | .ok command => command.run read
  | .error error => .usage error

end Command
end ScriptTree
