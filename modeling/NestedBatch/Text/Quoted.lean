import NestedBatch.Text.Invisible

/-! Texts between quotes, with escapes for what would not show. -/
namespace NestedBatch.Text

def lowerHex (n : Nat) : List Char := Nat.toDigits 16 n

/-- A character between quotes. What does not show is given by its number. -/
def shown (c : Char) : List Char :=
  if c = '"' ∨ c = '\\' then ['\\', c]
  else if c = '\n' then ['\\', 'n']
  else if c = '\r' then ['\\', 'r']
  else if c = '\t' then ['\\', 't']
  else if c = '\x00' then ['\\', '0']
  else if isInvisible c then '\\' :: 'u' :: '\x7b' :: (lowerHex c.toNat ++ ['\x7d'])
  else [c]

def quoted (s : String) : String :=
  String.ofList ('"' :: (s.toList.flatMap shown ++ ['"']))

end NestedBatch.Text
