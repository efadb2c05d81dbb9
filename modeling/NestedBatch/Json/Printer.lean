import NestedBatch.Json.Basic

/-! Writing JSON, on one line or with an indented line for every item. -/
namespace NestedBatch.Json

structure Layout where
  /-- Before an item at a depth of nesting, and before the closing bracket. -/
  line : Nat → List Char
  /-- After a name. -/
  colon : List Char

def compact : Layout := ⟨fun _ => [], [':']⟩

def pretty : Layout := ⟨fun depth => '\n' :: List.replicate (2 * depth) ' ', [':', ' ']⟩

def hexDigit (n : Nat) : Char := "0123456789abcdef".toList.getD n '0'

def escape (c : Char) : List Char :=
  if c = '"' then ['\\', '"']
  else if c = '\\' then ['\\', '\\']
  else if c = '\x08' then ['\\', 'b']
  else if c = '\t' then ['\\', 't']
  else if c = '\n' then ['\\', 'n']
  else if c = '\x0c' then ['\\', 'f']
  else if c = '\r' then ['\\', 'r']
  else if c.toNat < 0x20 then
    ['\\', 'u', '0', '0', hexDigit (c.toNat / 16), hexDigit (c.toNat % 16)]
  else [c]

def quoted (s : String) : List Char := '"' :: (s.toList.flatMap escape ++ ['"'])

mutual

def render (l : Layout) (depth : Nat) : Json → List Char
  | .null => ['n', 'u', 'l', 'l']
  | .bool true => ['t', 'r', 'u', 'e']
  | .bool false => ['f', 'a', 'l', 's', 'e']
  | .number n => n.chars
  | .string s => quoted s
  | .broken => quoted ""
  | .array [] => ['[', ']']
  | .array (v :: rest) =>
    '[' :: (l.line (depth + 1) ++ render l (depth + 1) v ++ renderItems l depth rest)
  | .object [] => ['\x7b', '\x7d']
  | .object ((name, v) :: rest) =>
    '\x7b' :: (l.line (depth + 1) ++ quoted name ++ l.colon ++ render l (depth + 1) v ++
      renderFields l depth rest)

def renderItems (l : Layout) (depth : Nat) : List Json → List Char
  | [] => l.line depth ++ [']']
  | v :: rest =>
    ',' :: (l.line (depth + 1) ++ render l (depth + 1) v ++ renderItems l depth rest)

def renderFields (l : Layout) (depth : Nat) : List (String × Json) → List Char
  | [] => l.line depth ++ ['\x7d']
  | (name, v) :: rest =>
    ',' :: (l.line (depth + 1) ++ quoted name ++ l.colon ++ render l (depth + 1) v ++
      renderFields l depth rest)

end

def compactText (v : Json) : String := String.ofList (render compact 0 v)

def prettyText (v : Json) : String := String.ofList (render pretty 0 v)

end NestedBatch.Json
