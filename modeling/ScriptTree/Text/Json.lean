/-! # JSON values

Values whose objects keep the order of their fields, and their written form with two blanks for each
level. -/
set_option autoImplicit false
namespace ScriptTree

inductive JsonValue where
  | flag (value : Bool)
  | number (value : Nat)
  | string (value : List Char)
  | array (items : List JsonValue)
  | object (fields : List (String × JsonValue))

namespace JsonValue

def controlDigits (code : Nat) : List Char :=
  let digits := Nat.toDigits 16 code
  List.replicate (4 - digits.length) '0' ++ digits

def escapedChar (char : Char) : List Char :=
  if char = '\x22' then ['\\', '\x22']
  else if char = '\\' then ['\\', '\\']
  else if char = '\x08' then ['\\', 'b']
  else if char = '\x0c' then ['\\', 'f']
  else if char = '\n' then ['\\', 'n']
  else if char = '\r' then ['\\', 'r']
  else if char = '\t' then ['\\', 't']
  else if char.toNat < 32 then ['\\', 'u'] ++ controlDigits char.toNat
  else [char]

def writtenString (value : List Char) : String :=
  String.ofList (['\x22'] ++ value.flatMap escapedChar ++ ['\x22'])

def indentation (depth : Nat) : String := "".pushn ' ' (2 * depth)

def bracketed (depth : Nat) (opening closing : String) : List String → String
  | [] => opening ++ closing
  | items =>
      opening ++ "\n" ++ ",\n".intercalate (items.map (indentation (depth + 1) ++ ·)) ++ "\n" ++
        indentation depth ++ closing

mutual

/-- The written form of a value at a depth. -/
def written (depth : Nat) : JsonValue → String
  | .flag value => if value then "true" else "false"
  | .number value => toString value
  | .string value => writtenString value
  | .array items => bracketed depth "[" "]" (writtenItems (depth + 1) items)
  | .object fields => bracketed depth "\x7b" "\x7d" (writtenFields (depth + 1) fields)

def writtenItems (depth : Nat) : List JsonValue → List String
  | [] => []
  | first :: rest => written depth first :: writtenItems depth rest

def writtenFields (depth : Nat) : List (String × JsonValue) → List String
  | [] => []
  | (name, value) :: rest =>
      (writtenString name.toList ++ ": " ++ written depth value) :: writtenFields depth rest

end

def pretty (value : JsonValue) : String := written 0 value

end JsonValue
end ScriptTree
