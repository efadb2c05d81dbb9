/-! Bytes as text. A list of octets holds each byte as the character of its
number, so that what works byte by byte can be written over characters. -/
namespace NestedBatch.Text

def octet (b : UInt8) : Char := Char.ofNat b.toNat

def octetsOf (b : ByteArray) : List Char := b.data.toList.map octet

def bytesOf (s : List Char) : ByteArray := ⟨(s.map fun c => c.toNat.toUInt8).toArray⟩

def encode (s : String) : List Char := octetsOf s.toUTF8

/-- Is the number that of a byte that goes on with a character? -/
def isContinuation (n : Nat) : Bool := 0x80 ≤ n && n ≤ 0xBF

/-- How many bytes follow the first one of a character, and between which bounds
the second one lies. -/
def followers? (first : Nat) : Option (Nat × Nat × Nat) :=
  if first < 0xC2 then none
  else if first ≤ 0xDF then some (1, 0x80, 0xBF)
  else if first = 0xE0 then some (2, 0xA0, 0xBF)
  else if first = 0xED then some (2, 0x80, 0x9F)
  else if first ≤ 0xEF then some (2, 0x80, 0xBF)
  else if first = 0xF0 then some (3, 0x90, 0xBF)
  else if first ≤ 0xF3 then some (3, 0x80, 0xBF)
  else if first = 0xF4 then some (3, 0x80, 0x8F)
  else none

/-- The bytes that go on with a character whose first byte came before. -/
def following (count low high : Nat) (s : List Char) : List Char :=
  match s with
  | [] => []
  | c :: rest =>
    if low ≤ c.toNat && c.toNat ≤ high then
      c :: (rest.take (count - 1)).takeWhile fun c => isContinuation c.toNat
    else []

/-- The text of some octets. What is no character is replaced, as far as it could
have started one. -/
def decodeUpTo : Nat → List Char → List Char
  | 0, _ => []
  | _, [] => []
  | fuel + 1, c :: rest =>
    if c.toNat < 0x80 then c :: decodeUpTo fuel rest
    else
      match followers? c.toNat with
      | none => '\uFFFD' :: decodeUpTo fuel rest
      | some (count, low, high) =>
        let more := following count low high rest
        let rest := decodeUpTo fuel (rest.drop more.length)
        if more.length = count then
          let lead := c.toNat % Nat.shiftLeft 1 (6 - count)
          Char.ofNat (more.foldl (fun n c => n * 64 + c.toNat % 64) lead) :: rest
        else '\uFFFD' :: rest

def decode (s : List Char) : String := String.ofList (decodeUpTo s.length s)

end NestedBatch.Text
