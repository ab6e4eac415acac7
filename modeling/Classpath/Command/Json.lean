/-!
JSON on several lines: two blanks a level, one item or member a line, and empty arrays and objects
on one. Only quotes, backslashes and control characters are escaped.
-/

set_option autoImplicit false

namespace Classpath.Command

inductive Json where
  | null
  | bool (value : Bool)
  | number (value : Nat)
  | string (value : String)
  | array (items : List Json)
  | object (members : List (String × Json))

namespace Json

def ofOption {α : Type} (toJson : α → Json) : Option α → Json
  | some value => toJson value
  | none => null

def escapeChar (c : Char) : List Char :=
  if c = '"' then ['\\', '"']
  else if c = '\\' then ['\\', '\\']
  else if c = '\n' then ['\\', 'n']
  else if c = '\r' then ['\\', 'r']
  else if c = '\t' then ['\\', 't']
  else if c = '\x08' then ['\\', 'b']
  else if c = '\x0C' then ['\\', 'f']
  else if c.toNat < 0x20 then
    ['\\', 'u', '0', '0', Nat.digitChar (c.toNat / 16), Nat.digitChar (c.toNat % 16)]
  else [c]

def quote (text : String) : String :=
  String.ofList ('"' :: text.toList.flatMap escapeChar ++ ['"'])

/-- A new line at the given level. -/
def newLine (level : Nat) : String := String.ofList ('\n' :: List.replicate (2 * level) ' ')

mutual

/-- The text of a value that begins on a line of the given level. -/
def pretty (level : Nat) : Json → String
  | null => "null"
  | bool true => "true"
  | bool false => "false"
  | number value => toString value
  | string value => quote value
  | array [] => "[]"
  | array (first :: rest) =>
      "[" ++ newLine (level + 1) ++ pretty (level + 1) first ++ prettyItems (level + 1) rest ++
        newLine level ++ "]"
  | object [] => "\x7b\x7d"
  | object ((name, value) :: rest) =>
      "\x7b" ++ newLine (level + 1) ++ quote name ++ ": " ++ pretty (level + 1) value ++
        prettyMembers (level + 1) rest ++ newLine level ++ "\x7d"

/-- Each item behind a comma. -/
def prettyItems (level : Nat) : List Json → String
  | [] => ""
  | item :: rest => "," ++ newLine level ++ pretty level item ++ prettyItems level rest

/-- Each member behind a comma. -/
def prettyMembers (level : Nat) : List (String × Json) → String
  | [] => ""
  | (name, value) :: rest =>
      "," ++ newLine level ++ quote name ++ ": " ++ pretty level value ++
        prettyMembers level rest

end

end Json

end Classpath.Command
