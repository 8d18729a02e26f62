import Coordination.Json.Value

/-! # Written JSON

The compact form has no blanks; the indented form puts each item on a line of its own, two blanks deeper
than its container. Only quotes, backslashes and control characters are escaped.
-/
namespace Coordination.Json

/-- Lower-case hexadecimal digit of a number below sixteen. -/
def hexDigit (n : Nat) : Char := Nat.digitChar n

/-- The written form of one character inside a string. -/
def escape (c : Char) : List Char :=
  if c = '"' then ['\\', '"']
  else if c = '\\' then ['\\', '\\']
  else if c = '\x08' then ['\\', 'b']
  else if c = '\t' then ['\\', 't']
  else if c = '\n' then ['\\', 'n']
  else if c = '\x0c' then ['\\', 'f']
  else if c = '\r' then ['\\', 'r']
  else if c.toNat < 0x20 then ['\\', 'u', '0', '0', hexDigit (c.toNat / 16), hexDigit (c.toNat % 16)]
  else [c]

def quoted (s : String) : List Char := '"' :: (s.toList.flatMap escape ++ ['"'])

/-- The written form of a value that is no container. -/
def scalar : Value → List Char
  | .null => "null".toList
  | .flag true => "true".toList
  | .flag false => "false".toList
  | .integer n => (toString n).toList
  | .decimal t => t.toList
  | .text s => quoted s
  | .list _ => []
  | .object _ => []

mutual
/-- The compact form. -/
def compact : Value → List Char
  | .list items => '[' :: (compactItems items ++ [']'])
  | .object members => '\x7b' :: (compactMembers members ++ ['\x7d'])
  | v => scalar v

def compactItems : List Value → List Char
  | [] => []
  | [v] => compact v
  | v :: rest => compact v ++ ',' :: compactItems rest

def compactMembers : List (String × Value) → List Char
  | [] => []
  | [(name, v)] => quoted name ++ ':' :: compact v
  | (name, v) :: rest => quoted name ++ ':' :: (compact v ++ ',' :: compactMembers rest)
end

/-- A line break and the blanks of a depth. -/
def newline (depth : Nat) : List Char := '\n' :: List.replicate (2 * depth) ' '

mutual
/-- The indented form of a value that stands at a depth. -/
def indented (depth : Nat) : Value → List Char
  | .list [] => ['[', ']']
  | .list items => '[' :: (indentedItems (depth + 1) items ++ newline depth ++ [']'])
  | .object [] => ['\x7b', '\x7d']
  | .object members => '\x7b' :: (indentedMembers (depth + 1) members ++ newline depth ++ ['\x7d'])
  | v => scalar v

def indentedItems (depth : Nat) : List Value → List Char
  | [] => []
  | [v] => newline depth ++ indented depth v
  | v :: rest => newline depth ++ indented depth v ++ ',' :: indentedItems depth rest

def indentedMembers (depth : Nat) : List (String × Value) → List Char
  | [] => []
  | [(name, v)] => newline depth ++ quoted name ++ ": ".toList ++ indented depth v
  | (name, v) :: rest =>
    newline depth ++ quoted name ++ ": ".toList ++ indented depth v ++ ',' :: indentedMembers depth rest
end

def Value.render (v : Value) : String := String.ofList (compact v)

def Value.renderIndented (v : Value) : String := String.ofList (indented 0 v)

end Coordination.Json
