import NestedBatch.Double.Rounded
import NestedBatch.Shell.Printing

/-! Formats, by which `printf` writes its arguments. A format is gone over
again until no argument is left, and a place without an argument is filled as
by an empty one. -/
namespace NestedBatch.Shell

structure Layout where
  flags : List Char
  width : Nat
  precision : Option Nat

namespace Layout

def has (l : Layout) (flag : Char) : Bool := l.flags.contains flag

def cut (l : Layout) (s : List Char) : List Char :=
  match l.precision with
  | some n => s.take n
  | none => s

def filling (l : Layout) (c : Char) (s : List Char) : List Char :=
  List.replicate (l.width - s.length) c

def pad (l : Layout) (s : List Char) : List Char :=
  if l.has '-' then s ++ l.filling ' ' s else l.filling ' ' s ++ s

/-- A sign or mark and what it stands before, filled up with zeros if the flag asks for it. -/
def padZeros (l : Layout) (mark s : List Char) : List Char :=
  if l.has '0' && !l.has '-' then mark ++ l.filling '0' (mark ++ s) ++ s else l.pad (mark ++ s)

/-- The digits of a number behind its sign or mark. The precision is the least
number of digits, and only without one does the flag `0` count. -/
def number (l : Layout) (mark digits : List Char) : List Char :=
  match l.precision with
  | some n =>
    let digits := if n = 0 ∧ digits = ['0'] then [] else digits
    l.pad (mark ++ List.replicate (n - digits.length) '0' ++ digits)
  | none => l.padZeros mark digits

def sign (l : Layout) (negative : Bool) : List Char :=
  if negative then ['-'] else if l.has '+' then ['+'] else if l.has ' ' then [' '] else []

end Layout

inductive NumberFault where
  | notNumeric
  | partly
  | outOfRange
  deriving DecidableEq

def isQuote (c : Char) : Bool := c = '"' || c = Char.ofNat 39

/-- What is wrong with an argument of which `left` was not taken for a number. -/
def faultOf (w left : List Char) (inRange : Bool) : Option NumberFault :=
  if !left.isEmpty then some (if left.length = w.length then .notNumeric else .partly)
  else if inRange then none
  else some .outOfRange

/-- The integer that an argument gives, and what it leaves. After a quote it is
the code of the first byte. -/
def integerOf (w : List Char) : Int × List Char :=
  match w with
  | [] => (0, [])
  | c :: rest =>
    if isQuote c then (((rest.head?.map Char.toNat).getD 0 : Nat), []) else leadingInteger w

/-- The unsigned word of a number, and whether its size fits into a word. -/
def unsignedWord (n : Int) : Nat × Bool :=
  let size := Span.long.high + 1 + Span.long.low
  if n.natAbs < size then ((n % size).toNat, true) else (size - 1, false)

/-! ### Fractions -/

inductive Fraction where
  | nan
  | infinite
  | quotient (num den : Nat)
  deriving DecidableEq

def highestPower : Int := 5000

/-- `digits * base ^ power`. -/
def Fraction.scaled (digits base : Nat) (power : Int) : Fraction :=
  if digits = 0 ∨ power < -2 * highestPower then .quotient 0 1
  else if highestPower < power then .infinite
  else if 0 ≤ power then .quotient (digits * Nat.pow base power.toNat) 1
  else .quotient digits (Nat.pow base (-power).toNat)

def exponentOf (letters : List Char) (s : List Char) : Int × List Char :=
  match s with
  | [] => (0, [])
  | c :: rest =>
    let (negative, digits) :=
      match rest with
      | '-' :: more => (true, more)
      | '+' :: more => (false, more)
      | more => (false, more)
    if letters.contains c && digits.head?.any Char.isDigit then
      let (n, left) := leadingDigits 10 0 digits
      (if negative then -(n : Int) else n, left)
    else (0, s)

/-- Digits with a point among them in front of a text: their value without the point,
how many stand behind it, and what is left. There has to be a digit. -/
def pointedDigits (base : Nat) (s : List Char) : Option (Nat × Nat × List Char) :=
  let (whole, rest) := leadingDigits base 0 s
  match rest with
  | '.' :: more =>
    let (all, left) := leadingDigits base whole more
    let places := more.length - left.length
    if rest.length < s.length ∨ 0 < places then some (all, places, left) else none
  | rest => if rest.length < s.length then some (whole, 0, rest) else none

def decimalOf (s : List Char) : Option (Fraction × List Char) :=
  (pointedDigits 10 s).map fun (n, places, rest) =>
    let (power, rest) := exponentOf ['e', 'E'] rest
    (.scaled n 10 (power - places), rest)

/-- A hexadecimal number in front of a text. Its exponent is one of two. -/
def hexadecimalOf (s : List Char) : Option (Fraction × List Char) :=
  if s.take 2 = ['0', 'x'] ∨ s.take 2 = ['0', 'X'] then
    (pointedDigits 16 (s.drop 2)).map fun (n, places, rest) =>
      let (power, rest) := exponentOf ['p', 'P'] rest
      (.scaled n 2 (power - 4 * places), rest)
  else none

def fractionOf (s : List Char) : Fraction × List Char :=
  let lower := (s.take 8).map Char.toLower
  if "infinity".toList.isPrefixOf lower then (.infinite, s.drop 8)
  else if "inf".toList.isPrefixOf lower then (.infinite, s.drop 3)
  else if "nan".toList.isPrefixOf lower then (.nan, s.drop 3)
  else ((hexadecimalOf s).or (decimalOf s)).getD (.quotient 0 1, s)

/-- The number that an argument gives, whether it is negative, and what it leaves. -/
def signedFractionOf (w : List Char) : Bool × Fraction × List Char :=
  match w with
  | [] => (false, .quotient 0 1, [])
  | c :: rest =>
    if isQuote c then (false, .quotient ((rest.head?.map Char.toNat).getD 0) 1, [])
    else
      let s := w.dropWhile isBlank
      let negative := s.head? = some '-'
      let t := if negative || s.head? = some '+' then s.drop 1 else s
      let (f, left) := fractionOf t
      if left.length = t.length then (false, f, w) else (negative, f, left)

def stripZeros (s : List Char) : List Char := (s.reverse.dropWhile (· = '0')).reverse

/-- A positive quotient under one of the conversions `f`, `e` and `g`. -/
def fractionText (conversion : Char) (l : Layout) (num den : Nat) : List Char :=
  let places := l.precision.getD 6
  let pointed (whole fraction : List Char) : List Char :=
    if fraction.isEmpty && !l.has '#' then whole else whole ++ '.' :: fraction
  let powered (digits : List Char) (e : Int) : List Char :=
    digits ++ 'e' :: (if e < 0 then '-' else '+') :: Numeral.padded 2 e.natAbs
  if conversion = 'f' then
    let (whole, fraction) := Double.fixed places num den
    pointed whole fraction
  else if conversion = 'e' then
    let (t, e) := Double.leading places num den
    let (whole, fraction) := Double.split places t
    powered (pointed whole fraction) e
  else
    let places := max places 1
    let (t, e) := Double.leading (places - 1) num den
    let shorten (s : List Char) : List Char := if l.has '#' then s else stripZeros s
    if -4 ≤ e ∧ e < places then
      let (whole, fraction) := Double.fixed (places - 1 - e).toNat num den
      pointed whole (shorten fraction)
    else
      let (whole, fraction) := Double.split (places - 1) t
      powered (pointed whole (shorten fraction)) e

/-! ### Places -/

/-- What a place becomes: its text, and what is wrong with its argument. -/
structure Filled where
  text : List Char
  /-- Does the argument break off all output? -/
  stopped : Bool := false
  fault : Option NumberFault := none

def fillInteger (conversion : Char) (l : Layout) (w : List Char) : Filled :=
  let (n, left) := integerOf w
  if conversion = 'd' then
    let (n, fits) := signedWord n
    { text := l.number (l.sign (n < 0)) (Numeral.ofNat n.natAbs), fault := faultOf w left fits }
  else
    let (n, fits) := unsignedWord n
    let marked := l.has '#' && n ≠ 0
    let text :=
      if conversion = 'u' then l.number [] (Numeral.ofNat n)
      else if conversion = 'o' then
        if marked then l.number [] ('0' :: Nat.toDigits 8 n)
        else
          let least := if l.has '#' then l.precision.map (max 1) else l.precision
          { l with precision := least }.number [] (Nat.toDigits 8 n)
      else if conversion = 'x' then
        l.number (if marked then ['0', 'x'] else []) (Nat.toDigits 16 n)
      else l.number (if marked then ['0', 'X'] else []) ((Nat.toDigits 16 n).map Char.toUpper)
    { text, fault := faultOf w left fits }

/-- A number with a fraction under a conversion, held with so many bits. -/
def fillFraction (bits : Nat) (conversion : Char) (l : Layout) (w : List Char) : Filled :=
  let (negative, f, left) := signedFractionOf w
  let lower := conversion.toLower
  let shown (s : List Char) : List Char := if conversion = lower then s else s.map Char.toUpper
  let word (s : String) : Filled :=
    { text := l.pad (l.sign negative ++ shown s.toList), fault := faultOf w left true }
  match f with
  | .nan => word "nan"
  | .infinite => word "inf"
  | .quotient num den =>
    let (num, den) := Double.toBits bits num den
    { text := l.padZeros (l.sign negative) (shown (fractionText lower l num den)),
      fault := faultOf w left true }

/-- The two makes of `printf`. -/
inductive Make where
  | builtin
  | program
  deriving DecidableEq

namespace Make

def formatEscapes : Make → Escapes
  | .builtin => .ofFormat
  | .program => .ofProgramFormat

def argumentEscapes : Make → Escapes
  | .builtin => .ofArgument
  | .program => .ofProgramArgument

def badCode : Make → Nat
  | .builtin => 2
  | .program => 1

def bits : Make → Nat
  | .builtin => 53
  | .program => 64

/-- May a place of this layout have the conversion? The shell's own `printf` takes all. -/
def allows (m : Make) (conversion : Char) (l : Layout) : Bool :=
  m = .builtin ||
    ((!l.has '0' || !"cs".toList.contains conversion) &&
     (!l.has '#' || !"csdiu".toList.contains conversion) &&
     (l.precision.isNone || conversion ≠ 'c') &&
     (conversion ≠ 'b' || (l.flags.isEmpty && l.width = 0 && l.precision.isNone)))

def faultText (m : Make) (w : List Char) (f : NumberFault) : String :=
  let w := String.ofList w
  match m, f with
  | .builtin, .notNumeric => w ++ ": expected numeric value"
  | .builtin, .partly => w ++ ": not completely converted"
  | .builtin, .outOfRange => w ++ ": Numerical result out of range"
  | .program, .notNumeric => "'" ++ w ++ "': expected a numeric value"
  | .program, .partly => "'" ++ w ++ "': value not completely converted"
  | .program, .outOfRange => "'" ++ w ++ "': Numerical result out of range"

/-- The complaint about a place, of which the text so far is given. -/
def placeText (m : Make) (place : List Char) : String :=
  String.ofList place ++
    match m with
    | .builtin => ": invalid directive"
    | .program => ": invalid conversion specification"

end Make

def fill (m : Make) (conversion : Char) (l : Layout) (w : List Char) : Option Filled :=
  if !m.allows conversion l then none
  else if conversion = 's' then some { text := l.pad (l.cut w) }
  else if conversion = 'b' then
    let (s, stopped) := m.argumentEscapes.apply (w.length + 1) w
    some { text := l.pad (l.cut s), stopped }
  else if conversion = 'c' then some { text := l.pad [w.head?.getD '\x00'] }
  else if conversion = 'd' ∨ conversion = 'i' then some (fillInteger 'd' l w)
  else if "ouxX".toList.contains conversion then some (fillInteger conversion l w)
  else if "eEfFgG".toList.contains conversion then some (fillFraction m.bits conversion l w)
  else none

inductive Piece where
  | out (text : List Char)
  | complaint (text : String)

structure FormatPass where
  pieces : List Piece
  left : List String
  /-- Has the pass met a place for an argument? -/
  took : Bool
  stopped : Bool
  code : Nat

/-- What the start of a place says: its layout, what is left of the format and
of the arguments, and the complaints about the latter. -/
structure Opening where
  layout : Layout
  format : List Char
  left : List String
  complaints : List Piece

def widest : Nat := 1000000

def complaintOf (m : Make) (w : List Char) (f : Option NumberFault) : List Piece :=
  (f.map fun f => Piece.complaint (m.faultText w f)).toList

/-- A number of a layout: digits, or a star for that of the next argument, of
which the low 32 bits count. -/
def Opening.number (m : Make) (o : Opening) : Int × Opening :=
  match o.format with
  | '*' :: rest =>
    let w := (o.left.head?.getD "").toList
    let (n, left) := integerOf w
    let (n, fits) := signedWord n
    let complaints := o.complaints ++ complaintOf m w (faultOf w left fits)
    (min (n.bmod 4294967296) widest, { o with format := rest, left := o.left.drop 1, complaints })
  | s =>
    let digits := s.takeWhile Char.isDigit
    (min (Numeral.value digits) widest, { o with format := s.drop digits.length })

/-- Reads the start of a place. A width below zero aligns to the left, and a
precision below zero is none. -/
def openPlace (m : Make) (s : List Char) (left : List String) : Opening :=
  let flags := s.takeWhile fun c => c = '-' || c = '0' || c = '+' || c = ' ' || c = '#'
  let (width, o) := Opening.number m ⟨⟨flags, 0, none⟩, s.drop flags.length, left, []⟩
  let flags := if width < 0 then '-' :: flags else flags
  let o := { o with layout := ⟨flags, width.natAbs, none⟩ }
  let o :=
    match o.format with
    | '.' :: rest =>
      let (precision, o) := Opening.number m { o with format := rest }
      if precision < 0 then o
      else { o with layout := { o.layout with precision := some precision.toNat } }
    | _ => o
  if m = .builtin then o
  else { o with format := o.format.dropWhile fun c => "hlLjzt".toList.contains c }

/-- One pass over a format. A place without a known conversion ends all output. -/
def formatPass (m : Make) : Nat → List Char → List String → FormatPass
  | 0, _, left => ⟨[], left, false, false, 0⟩
  | _, [], left => ⟨[], left, false, false, 0⟩
  | fuel + 1, c :: rest, left =>
    let plain (s : List Char) (rest : List Char) : FormatPass :=
      let p := formatPass m fuel rest left
      { p with pieces := .out s :: p.pieces }
    if c = '\\' then
      match m.formatEscapes.read rest with
      | (.text s, rest) => plain s rest
      | (.stop, _) => ⟨[], left, true, true, 0⟩
      | (.bad, _) =>
        ⟨[.complaint "missing hexadecimal number in escape"], left, true, true, m.badCode⟩
    else if c ≠ '%' then plain [c] rest
    else if rest.head? = some '%' then plain ['%'] (rest.drop 1)
    else
      let o := openPlace m rest left
      let bad : FormatPass :=
        let place := '%' :: rest.take (rest.length - o.format.length + 1)
        let text :=
          if m = .builtin && o.format.isEmpty then "missing format character"
          else m.placeText place
        ⟨o.complaints ++ [.complaint text], o.left, true, true, m.badCode⟩
      match o.format with
      | [] => bad
      | conversion :: rest =>
        let w := (o.left.head?.getD "").toList
        match fill m conversion o.layout w with
        | none => bad
        | some f =>
          let complaints := o.complaints ++ complaintOf m w f.fault
          let code := if complaints.isEmpty then 0 else 1
          let pieces := complaints ++ [.out f.text]
          if f.stopped then ⟨pieces, o.left.drop 1, true, true, code⟩
          else
            let p := formatPass m fuel rest (o.left.drop 1)
            ⟨pieces ++ p.pieces, p.left, true, p.stopped, max code p.code⟩

def formatAll (m : Make) (format : List Char) : Nat → List String → List Piece × Nat
  | 0, _ => ([], 0)
  | fuel + 1, arguments =>
    let p := formatPass m (format.length + 1) format arguments
    if p.stopped || p.left.isEmpty then (p.pieces, p.code)
    else if !p.took then
      match m, p.left with
      | .program, first :: _ =>
        let text := "warning: ignoring excess arguments, starting with '" ++ first ++ "'"
        (p.pieces ++ [.complaint text], p.code)
      | _, _ => (p.pieces, p.code)
    else
      let (more, code) := formatAll m format fuel p.left
      (p.pieces ++ more, max p.code code)

/-- What `printf` writes, and its exit code. It knows no options, but takes the
mark that ends them. -/
def printFormatted (m : Make) (arguments : List String) : List Piece × Nat :=
  let format (format : String) (arguments : List String) : List Piece × Nat :=
    formatAll m format.toList (arguments.length + 1) arguments
  match arguments with
  | "--" :: first :: rest => format first rest
  | first :: rest =>
    if m = .builtin && first.startsWith "-" && first ≠ "-" then
      let option := String.ofList ((first.toList.drop 1).take 1)
      ([.complaint ("Illegal option -" ++ option)], 2)
    else format first rest
  | [] =>
    match m with
    | .builtin => ([.complaint "usage: printf format [arg ...]"], 2)
    | .program => ([.complaint "missing operand"], 1)

def outputOf (pieces : List Piece) : List Char :=
  pieces.flatMap fun
    | .out s => s
    | .complaint _ => []

end NestedBatch.Shell
