import NestedBatch.Calendar.Date
import NestedBatch.Double.Reading
import NestedBatch.Toml.Basic

/-! Reading TOML. -/
namespace NestedBatch.Toml

/-- Arrays and inline tables nest no deeper than this, and keys have no more parts. -/
def depthLimit : Nat := 79

def singleQuote : Char := Char.ofNat 39

def isSpace (c : Char) : Bool := c = ' ' || c = '\t'

def skipSpace (s : List Char) : List Char := s.dropWhile isSpace

def isPlain (c : Char) : Bool := c = '\t' || (0x20 ≤ c.toNat && c.toNat ≠ 0x7F)

def newline? : List Char → Option (List Char)
  | '\n' :: rest => some rest
  | '\r' :: '\n' :: rest => some rest
  | _ => none

def skipComment : List Char → List Char
  | '#' :: rest => rest.dropWhile isPlain
  | s => s

/-- What may follow on a line that is complete, with the line break. -/
def lineEnd? (s : List Char) : Option (List Char) :=
  match skipComment (skipSpace s) with
  | [] => some []
  | s => newline? s

def skipLines : Nat → List Char → List Char
  | 0, s => s
  | fuel + 1, s =>
    let t := skipComment (skipSpace s)
    match newline? t with
    | some rest => skipLines fuel rest
    | none => t

/-! ### Strings -/

def hexValue? (c : Char) : Option Nat :=
  if c.isDigit then some (c.toNat - '0'.toNat)
  else if 'a' ≤ c ∧ c ≤ 'f' then some (c.toNat - 'a'.toNat + 10)
  else if 'A' ≤ c ∧ c ≤ 'F' then some (c.toNat - 'A'.toNat + 10)
  else none

def codePoint? (count : Nat) (s : List Char) : Option (Char × List Char) := do
  let digits ← (s.take count).mapM hexValue?
  let n := digits.foldl (fun n d => 16 * n + d) 0
  if digits.length = count ∧ n.isValidChar then some (Char.ofNat n, s.drop count) else none

def escape? : List Char → Option (Char × List Char)
  | [] => none
  | c :: rest =>
    if c = 'b' then some ('\x08', rest)
    else if c = 't' then some ('\t', rest)
    else if c = 'n' then some ('\n', rest)
    else if c = 'f' then some ('\x0c', rest)
    else if c = 'r' then some ('\r', rest)
    else if c = '"' ∨ c = '\\' then some (c, rest)
    else if c = 'u' then codePoint? 4 rest
    else if c = 'U' then codePoint? 8 rest
    else none

/-- The inside of a string on one line, and what follows its closing quote. -/
def lineString? (quote : Char) (escapes : Bool) : Nat → List Char → Option (List Char × List Char)
  | 0, _ => none
  | fuel + 1, s =>
    match s with
    | [] => none
    | c :: rest =>
      if c = quote then some ([], rest)
      else if c = '\\' ∧ escapes then do
        let (c, rest) ← escape? rest
        let (inside, rest) ← lineString? quote escapes fuel rest
        some (c :: inside, rest)
      else if isPlain c then (lineString? quote escapes fuel rest).map fun p => (c :: p.1, p.2)
      else none

/-- A backslash at the end of a line takes away all blanks and line breaks up to the next text. -/
def joinedLine? (s : List Char) : Option (List Char) :=
  (newline? (skipSpace s)).map fun rest => trim (rest.length + 1) rest
where
  trim : Nat → List Char → List Char
    | 0, s => s
    | fuel + 1, s =>
      match newline? (skipSpace s) with
      | some rest => trim fuel rest
      | none => skipSpace s

/-- The inside of a string over several lines. It ends with three quotes; up to
two more in front of them belong to the text. -/
def blockString? (quote : Char) (escapes : Bool) : Nat → List Char → Option (List Char × List Char)
  | 0, _ => none
  | fuel + 1, s =>
    match s with
    | [] => none
    | c :: rest =>
      if c = quote then
        let run := s.takeWhile (· = quote)
        let after := s.drop run.length
        if 5 < run.length then none
        else if 3 ≤ run.length then some (run.drop 3, after)
        else (blockString? quote escapes fuel after).map fun p => (run ++ p.1, p.2)
      else if c = '\\' ∧ escapes then
        match joinedLine? rest with
        | some rest => blockString? quote escapes fuel rest
        | none => do
          let (c, rest) ← escape? rest
          let (inside, rest) ← blockString? quote escapes fuel rest
          some (c :: inside, rest)
      else
        match newline? s with
        | some rest => (blockString? quote escapes fuel rest).map fun p => ('\n' :: p.1, p.2)
        | none =>
          if isPlain c then (blockString? quote escapes fuel rest).map fun p => (c :: p.1, p.2)
          else none

def string? (s : List Char) : Option (String × List Char) :=
  match s with
  | [] => none
  | quote :: rest =>
    let escapes := quote = '"'
    let found :=
      if rest.take 2 = [quote, quote] then
        let inside := rest.drop 2
        blockString? quote escapes (s.length + 1) ((newline? inside).getD inside)
      else lineString? quote escapes (s.length + 1) rest
    found.map fun p => (String.ofList p.1, p.2)

/-! ### Numbers and times -/

/-- Digits with single underscores between them; the underscores are left out. -/
def digits? (isDigit : Char → Bool) (s : List Char) : Option (List Char × List Char) :=
  match s with
  | [] => none
  | c :: rest => if isDigit c then some (more c rest) else none
where
  more (c : Char) : List Char → List Char × List Char
    | '_' :: d :: rest =>
      if isDigit d then
        let (ds, rest) := more d rest
        (c :: ds, rest)
      else ([c], '_' :: d :: rest)
    | d :: rest =>
      if isDigit d then
        let (ds, rest) := more d rest
        (c :: ds, rest)
      else ([c], d :: rest)
    | [] => ([c], [])

/-- Exactly so many digits, as a number from `low` to `high`. -/
def field? (count low high : Nat) (s : List Char) : Option (Nat × List Char) :=
  let digits := s.take count
  let n := Numeral.value digits
  if digits.length = count ∧ digits.all Char.isDigit ∧ low ≤ n ∧ n ≤ high then
    some (n, s.drop count)
  else none

def expect (c : Char) : List Char → Option (List Char)
  | [] => none
  | d :: rest => if d = c then some rest else none

/-- A time of day. It is written with no zeros at the end of its fraction, of
which nine digits count. -/
def clock? (s : List Char) : Option (List Char × List Char) := do
  let (hour, s) ← field? 2 0 23 s
  let s ← expect ':' s
  let (minute, s) ← field? 2 0 59 s
  let s ← expect ':' s
  let (second, s) ← field? 2 0 60 s
  let text :=
    Numeral.padded 2 hour ++ ':' :: Numeral.padded 2 minute ++ ':' :: Numeral.padded 2 second
  match s with
  | '.' :: rest =>
    let digits := rest.takeWhile Char.isDigit
    let counted := ((digits.take 9).reverse.dropWhile (· = '0')).reverse
    if digits.isEmpty then none
    else
      some (if counted.isEmpty then text else text ++ '.' :: counted, rest.drop digits.length)
  | s => some (text, s)

def zone? : List Char → Option (List Char × List Char)
  | 'Z' :: rest | 'z' :: rest => some (['Z'], rest)
  | '+' :: rest => distance '+' rest
  | '-' :: rest => distance '-' rest
  | s => some ([], s)
where
  distance (sign : Char) (s : List Char) : Option (List Char × List Char) := do
    let (hours, s) ← field? 2 0 23 s
    let s ← expect ':' s
    let (minutes, s) ← field? 2 0 59 s
    let sign := if hours = 0 ∧ minutes = 0 then '+' else sign
    some (sign :: (Numeral.padded 2 hours ++ ':' :: Numeral.padded 2 minutes), s)

def date? (s : List Char) : Option (List Char × List Char) := do
  let (year, s) ← field? 4 0 9999 s
  let s ← expect '-' s
  let (month, s) ← field? 2 1 12 s
  let s ← expect '-' s
  let (day, s) ← field? 2 1 (Date.monthLength year month) s
  let text :=
    Numeral.padded 4 year ++ '-' :: Numeral.padded 2 month ++ '-' :: Numeral.padded 2 day
  match s with
  | c :: rest =>
    if (c = 'T' ∨ c = 't' ∨ c = ' ') ∧ (field? 2 0 23 rest).isSome then do
      let (clock, rest) ← clock? rest
      let (zone, rest) ← zone? rest
      some (text ++ 'T' :: (clock ++ zone), rest)
    else some (text, s)
  | [] => some (text, [])

def based? (base : Nat) (negative : Bool) (s : List Char) : Option (Toml × List Char) := do
  let isDigit (c : Char) : Bool := (hexValue? c).any (· < base)
  let (digits, rest) ← digits? isDigit s
  let n := digits.foldl (fun n c => base * n + (hexValue? c).getD 0) 0
  if !negative ∧ n ≤ Span.long.high then some (.integer n, rest) else none

def exponent? (s : List Char) : Option (List Char × List Char) :=
  match s with
  | c :: rest =>
    if c = 'e' ∨ c = 'E' then
      let (sign, rest) :=
        match rest with
        | '+' :: rest => ([], rest)
        | '-' :: rest => (['-'], rest)
        | rest => ([], rest)
      (digits? Char.isDigit rest).map fun p => ('e' :: (sign ++ p.1), p.2)
    else some ([], s)
  | [] => some ([], [])

/-- A decimal number. A zero stands alone before the point. An integer has to be
a word of 64 bits; a number with a point or an exponent may only be too low. -/
def decimal? (sign : List Char) (s : List Char) : Option (Toml × List Char) := do
  let (whole, s) ← digits? Char.isDigit s
  if whole.head? = some '0' ∧ 1 < whole.length then none
  else
    let (fraction, s) ←
      match s with
      | '.' :: rest => (digits? Char.isDigit rest).map fun p => ('.' :: p.1, p.2)
      | s => some ([], s)
    let (exponent, s) ← exponent? s
    if fraction.isEmpty && exponent.isEmpty then
      match Numeral.read .long (sign ++ whole) with
      | .ok n => some (.integer n, s)
      | .error _ => none
    else do
      let d ← Double.read (sign ++ whole ++ fraction ++ exponent)
      if d = .infinite false then none else some (.float d, s)

def number? (s : List Char) : Option (Toml × List Char) :=
  let (sign, rest) :=
    match s with
    | '+' :: rest => (['+'], rest)
    | '-' :: rest => (['-'], rest)
    | rest => ([], rest)
  let negative := sign = ['-']
  match rest with
  | 'i' :: 'n' :: 'f' :: rest => some (.float (.infinite negative), rest)
  | 'n' :: 'a' :: 'n' :: rest => some (.float .nan, rest)
  | '0' :: 'x' :: rest => based? 16 (!sign.isEmpty) rest
  | '0' :: 'o' :: rest => based? 8 (!sign.isEmpty) rest
  | '0' :: 'b' :: rest => based? 2 (!sign.isEmpty) rest
  | rest => decimal? sign rest

def scalar? (s : List Char) : Option (Toml × List Char) :=
  if (field? 4 0 9999 s).isSome && (s.drop 4).head? = some '-' then
    (date? s).map fun p => (.time (String.ofList p.1), p.2)
  else if (field? 2 0 99 s).isSome && (s.drop 2).head? = some ':' then
    (clock? s).map fun p => (.time (String.ofList p.1), p.2)
  else number? s

/-! ### Keys and values -/

def isBareKeyChar (c : Char) : Bool := c.isAlphanum || c = '_' || c = '-'

/-- One part of a key: bare, or a string on one line. -/
def keyPart? (s : List Char) : Option (String × List Char) :=
  match s with
  | [] => none
  | c :: rest =>
    if c = '"' ∨ c = singleQuote then
      (lineString? c (c = '"') (s.length + 1) rest).map fun p => (String.ofList p.1, p.2)
    else
      let bare := s.takeWhile isBareKeyChar
      if bare.isEmpty then none else some (String.ofList bare, s.drop bare.length)

/-- A key: its parts are joined by points, with space around them. -/
def key? : Nat → List Char → Option (List String × List Char)
  | 0, _ => none
  | fuel + 1, s => do
    let (part, rest) ← keyPart? (skipSpace s)
    match skipSpace rest with
    | '.' :: rest => (key? fuel rest).map fun p => (part :: p.1, p.2)
    | rest => some ([part], rest)

mutual

def value? : Nat → Nat → List Char → Option (Toml × List Char)
  | 0, _, _ => none
  | fuel + 1, depth, s =>
    match s with
    | [] => none
    | c :: rest =>
      if c = '"' ∨ c = singleQuote then (string? s).map fun p => (.string p.1, p.2)
      else if c = '[' then
        if depthLimit < depth + 1 then none
        else (items? fuel (depth + 1) rest).map fun p => (.array p.1, p.2)
      else if c = '\x7b' then
        if depthLimit < depth + 1 then none
        else
          match skipSpace rest with
          | '\x7d' :: rest => some (.table .inline [], rest)
          | rest => (pairs? fuel (depth + 1) [] rest).map fun p => (.table .inline p.1, p.2)
      else
        match s with
        | 't' :: 'r' :: 'u' :: 'e' :: rest => some (.boolean true, rest)
        | 'f' :: 'a' :: 'l' :: 's' :: 'e' :: rest => some (.boolean false, rest)
        | s => scalar? s

/-- The items of an array, and its end. A comma may follow the last one. -/
def items? : Nat → Nat → List Char → Option (List Toml × List Char)
  | 0, _, _ => none
  | fuel + 1, depth, s =>
    match skipLines s.length s with
    | ']' :: rest => some ([], rest)
    | s =>
      match value? fuel depth s with
      | none => none
      | some (v, rest) =>
        match skipLines rest.length rest with
        | ']' :: rest => some ([v], rest)
        | ',' :: rest => (items? fuel depth rest).map fun p => (v :: p.1, p.2)
        | _ => none

/-- The fields of an inline table, and its end, on one line. -/
def pairs? : Nat → Nat → Fields → List Char → Option (Fields × List Char)
  | 0, _, _, _ => none
  | fuel + 1, depth, fields, s =>
    match key? depthLimit s with
    | some (path, '=' :: rest) =>
      match value? fuel depth (skipSpace rest) with
      | none => none
      | some (v, rest) =>
        match file v path fields with
        | none => none
        | some fields =>
          match skipSpace rest with
          | '\x7d' :: rest => some (fields, rest)
          | ',' :: rest => pairs? fuel depth fields rest
          | _ => none
    | _ => none

end

/-! ### Documents -/

/-- What has been read so far: all fields, and the path of the open table. -/
structure Draft where
  fields : Fields
  header : List String

def header? (d : Draft) (s : List Char) : Option (Draft × List Char) :=
  match s with
  | '[' :: s =>
    match key? depthLimit s with
    | some (path, ']' :: ']' :: rest) => (along openNext path d.fields).map (⟨·, path⟩, rest)
    | _ => none
  | s =>
    match key? depthLimit s with
    | some (path, ']' :: rest) => (along openTable path d.fields).map (⟨·, path⟩, rest)
    | _ => none

def assignment? (d : Draft) (s : List Char) : Option (Draft × List Char) :=
  match key? depthLimit s with
  | some (path, '=' :: rest) => do
    let (v, rest) ← value? (2 * rest.length + 2) 0 (skipSpace rest)
    let fields ←
      if d.header.isEmpty then file v path d.fields
      else along (inside (file v path)) d.header d.fields
    some (⟨fields, d.header⟩, rest)
  | _ => none

def lines? : Nat → Draft → List Char → Option Fields
  | 0, _, _ => none
  | fuel + 1, d, s =>
    match skipComment (skipSpace s) with
    | [] => some d.fields
    | c :: rest =>
      match newline? (c :: rest) with
      | some rest => lines? fuel d rest
      | none =>
        match if c = '[' then header? d rest else assignment? d (c :: rest) with
        | none => none
        | some (d, rest) => (lineEnd? rest).bind (lines? fuel d)

/-- The fields of a document. A byte order mark in front does not count. -/
def read (text : String) : Option Fields :=
  let s :=
    match text.toList with
    | '\uFEFF' :: rest => rest
    | s => s
  lines? (s.length + 1) ⟨[], []⟩ s

end NestedBatch.Toml
