import ScriptTree.Parse.Match

/-! # Source files

A collection of files whose texts can change, with the parse of each text and the place of an offset in
it. -/
set_option autoImplicit false
namespace ScriptTree

/-- A place in a text, counted from zero; the column counts bytes. -/
structure LineColumn where
  line : Nat
  column : Nat
  deriving DecidableEq, Repr

namespace Text

/-- The place of an offset that lies in the text; only `\n` ends a line. -/
def placeOf (line column : Nat) : Nat → List Char → LineColumn
  | 0, _ => ⟨line, column⟩
  | _ + 1, [] => ⟨line, column⟩
  | offset + 1, char :: rest =>
      if offset + 1 < char.utf8Size then ⟨line, column + (offset + 1)⟩
      else if char = '\n' then placeOf (line + 1) 0 offset rest
      else placeOf line (column + char.utf8Size) (offset + 1 - char.utf8Size) rest

def lineColumn? (text : List Char) (offset : Nat) : Option LineColumn :=
  if offset ≤ byteLength text then some (placeOf 0 0 offset text) else none

end Text

structure SourceFile where
  path : String
  text : List Char
  deriving DecidableEq

namespace SourceFile

def lineColumn? (file : SourceFile) (offset : Nat) : Option LineColumn :=
  Text.lineColumn? file.text offset

def parse (file : SourceFile) : Except ParseFailure SyntaxTree := parseText .script file.text

end SourceFile

structure SourceFiles where
  files : Array SourceFile
  deriving DecidableEq

namespace SourceFiles

def empty : SourceFiles := ⟨#[]⟩

def add (sources : SourceFiles) (path : String) (text : List Char) : SourceFiles × Nat :=
  (⟨sources.files.push ⟨path, text⟩⟩, sources.files.size)

def get? (sources : SourceFiles) (index : Nat) : Option SourceFile := sources.files[index]?

def setText? (sources : SourceFiles) (index : Nat) (text : List Char) : Option SourceFiles :=
  if index < sources.files.size then
    some ⟨sources.files.modify index fun file => { file with text := text }⟩
  else none

end SourceFiles
end ScriptTree
