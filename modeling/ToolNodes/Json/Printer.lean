import ToolNodes.Json.Number

/-!
# Writing JSON

The compact form has no blanks. The pretty form indents by two spaces and puts each item and member
on a line of its own; an empty array or object stays on one line. A string escapes the quote, the
backslash and the control characters below U+0020, five of them by letter; every other character
stands as it is.
-/

namespace ToolNodes.Json

def hexLower (n : Nat) : Char := Nat.digitChar n

def escapeChar (c : Char) : List Char :=
  if c = '"' then ['\\', '"']
  else if c = '\\' then ['\\', '\\']
  else if c = '\x08' then ['\\', 'b']
  else if c = '\x0c' then ['\\', 'f']
  else if c = '\n' then ['\\', 'n']
  else if c = '\r' then ['\\', 'r']
  else if c = '\t' then ['\\', 't']
  else if c.toNat < 0x20 then
    ['\\', 'u', '0', '0', hexLower (c.toNat / 16), hexLower (c.toNat % 16)]
  else [c]

def quote (s : String) : List Char := '"' :: s.toList.flatMap escapeChar ++ ['"']

mutual
def compactChars : Json → List Char
  | null => ['n', 'u', 'l', 'l']
  | bool true => ['t', 'r', 'u', 'e']
  | bool false => ['f', 'a', 'l', 's', 'e']
  | number n => n.text
  | string s => quote s
  | array [] => ['[', ']']
  | array (v :: items) => '[' :: compactChars v ++ compactItems items ++ [']']
  | object [] => ['{', '}']
  | object ((key, v) :: members) =>
    '{' :: quote key ++ ':' :: compactChars v ++ compactMembers members ++ ['}']

/-- The items behind the first. -/
def compactItems : List Json → List Char
  | [] => []
  | v :: items => ',' :: compactChars v ++ compactItems items

/-- The members behind the first. -/
def compactMembers : List (String × Json) → List Char
  | [] => []
  | (key, v) :: members =>
    ',' :: quote key ++ ':' :: compactChars v ++ compactMembers members
end

/-- A line break and the indentation of a level. -/
def newline (level : Nat) : List Char := '\n' :: List.replicate (2 * level) ' '

mutual
def prettyChars (level : Nat) : Json → List Char
  | null => ['n', 'u', 'l', 'l']
  | bool true => ['t', 'r', 'u', 'e']
  | bool false => ['f', 'a', 'l', 's', 'e']
  | number n => n.text
  | string s => quote s
  | array [] => ['[', ']']
  | array (v :: items) =>
    '[' :: newline (level + 1) ++ prettyChars (level + 1) v ++ prettyItems (level + 1) items ++
      newline level ++ [']']
  | object [] => ['{', '}']
  | object ((key, v) :: members) =>
    '{' :: newline (level + 1) ++ quote key ++ ':' :: ' ' :: prettyChars (level + 1) v ++
      prettyMembers (level + 1) members ++ newline level ++ ['}']

/-- The items behind the first, each on a line of its own. -/
def prettyItems (level : Nat) : List Json → List Char
  | [] => []
  | v :: items => ',' :: newline level ++ prettyChars level v ++ prettyItems level items

/-- The members behind the first, each on a line of its own. -/
def prettyMembers (level : Nat) : List (String × Json) → List Char
  | [] => []
  | (key, v) :: members =>
    ',' :: newline level ++ quote key ++ ':' :: ' ' :: prettyChars level v ++
      prettyMembers level members
end

def compact (v : Json) : String := String.ofList (compactChars v)

def pretty (v : Json) : String := String.ofList (prettyChars 0 v)

end ToolNodes.Json
