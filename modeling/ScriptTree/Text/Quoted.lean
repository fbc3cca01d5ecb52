import ScriptTree.Text.Character

/-! # Quoted text

How a text is shown inside an answer: in double quotes, with whatever is invisible or would join its
neighbour written as an escape. -/
set_option autoImplicit false
namespace ScriptTree.Text

/-- A code point in lower-case hexadecimal digits, without padding. -/
def hexadecimal (number : Nat) : List Char := Nat.toDigits 16 number

def quotedChar (char : Char) : List Char :=
  if char = '\x22' then ['\\', '\x22']
  else if char = '\\' then ['\\', '\\']
  else if char = '\t' then ['\\', 't']
  else if char = '\n' then ['\\', 'n']
  else if char = '\r' then ['\\', 'r']
  else if char = '\x00' then ['\\', '0']
  else if isExtending char || !isPrintable char then
    ['\\', 'u', '\x7b'] ++ hexadecimal char.toNat ++ ['\x7d']
  else [char]

def quoted (text : List Char) : String :=
  String.ofList (['\x22'] ++ text.flatMap quotedChar ++ ['\x22'])

end ScriptTree.Text
