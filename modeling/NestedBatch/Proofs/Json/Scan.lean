import NestedBatch.Json.Printer
import NestedBatch.Json.Reader
import NestedBatch.Proofs.Text.Digits

/-! Strings and numbers as the writer of JSON leaves them, in front of any text:
the reader takes them and nothing else. -/
namespace NestedBatch.Json

section Strings

/-- Has the character a letter of its own after the backslash, or needs it none? -/
def isPlain (c : Char) : Bool :=
  0x20 ≤ c.toNat || c = '\x08' || c = '\t' || c = '\n' || c = '\x0c' || c = '\r'

def pieceOf (c : Char) : Piece := if isPlain c then .char c else .unit c.toNat

theorem hexUnit?_hexDigit : ∀ n < 32,
    hexUnit? '0' '0' (hexDigit (n / 16)) (hexDigit (n % 16)) = some n := by
  decide

theorem pieces_plain {c : Char} {s rest : List Char} {ps : List Piece}
    (quote : c ≠ '"') (backslash : c ≠ '\\') (visible : ¬ c.toNat < 0x20)
    (read : pieces s = some (ps, rest)) : pieces (c :: s) = some (.char c :: ps, rest) := by
  rw [pieces.eq_def]
  split <;> simp_all

theorem pieces_escape (c : Char) {s rest : List Char} {ps : List Piece}
    (read : pieces s = some (ps, rest)) :
    pieces (escape c ++ s) = some (pieceOf c :: ps, rest) := by
  by_cases named : c ∈ ['"', '\\', '\x08', '\t', '\n', '\x0c', '\r']
  · simp only [List.mem_cons, List.not_mem_nil, or_false] at named
    rcases named with rfl | rfl | rfl | rfl | rfl | rfl | rfl <;>
      simp [escape, pieces, escaped?, read, pieceOf, isPlain]
  · simp only [List.mem_cons, List.not_mem_nil, or_false, not_or] at named
    obtain ⟨quote, backslash, b, t, n, f, r⟩ := named
    by_cases control : c.toNat < 0x20
    · have unit := hexUnit?_hexDigit c.toNat control
      have piece : pieceOf c = .unit c.toNat := by
        simp [pieceOf, isPlain, b, t, n, f, r, control]
      simp [escape, quote, backslash, b, t, n, f, r, control, pieces, unit, read, piece]
    · have piece : pieceOf c = .char c := by
        simp [pieceOf, isPlain, Nat.not_lt.1 control]
      have plain := pieces_plain quote backslash control read
      simp [escape, quote, backslash, b, t, n, f, r, control, plain, piece]

theorem pieces_quoted (s rest : List Char) :
    pieces (s.flatMap escape ++ '"' :: rest) = some (s.map pieceOf, rest) := by
  induction s with
  | nil => simp [pieces]
  | cons c s ih =>
    rw [List.flatMap_cons, List.append_assoc, List.map_cons]
    exact pieces_escape c ih

/-- A unit below the surrogates stands for its character whatever follows. -/
theorem joinPieces_unit {n : Nat} (low : n < 0xD800) (ps : List Piece) :
    joinPieces (.unit n :: ps) = (joinPieces ps).map (Char.ofNat n :: ·) := by
  cases ps with
  | nil => simp [joinPieces, low]
  | cons p ps => cases p <;> simp [joinPieces, low]

theorem joinPieces_map (s : List Char) : joinPieces (s.map pieceOf) = some s := by
  induction s with
  | nil => rfl
  | cons c s ih =>
    rw [List.map_cons]
    cases plain : isPlain c with
    | true =>
      have piece : pieceOf c = .char c := by simp only [pieceOf, plain, if_true]
      simp only [piece, joinPieces, ih, Option.map_some]
    | false =>
      have piece : pieceOf c = .unit c.toNat := by
        simp only [pieceOf, plain, Bool.false_eq_true, if_false]
      have low : c.toNat < 0xD800 := by
        simp only [isPlain, Bool.or_eq_false_iff, decide_eq_false_iff_not] at plain
        omega
      rw [piece, joinPieces_unit low, ih, Option.map_some, Char.ofNat_toNat]

/-- A written string is read back, after its opening quote. -/
theorem string?_quoted (s : String) (rest : List Char) :
    string? (s.toList.flatMap escape ++ '"' :: rest) = some (some s, rest) := by
  simp only [string?, pieces_quoted, Option.map_some, joinPieces_map, String.ofList_toList]

end Strings

section Numbers

open Numeral

variable {ds rest : List Char}

/-- Does a text go on with something that no number goes on with? -/
def Ends : List Char → Prop
  | [] => True
  | c :: _ => c.isDigit = false ∧ c ≠ '.' ∧ c ≠ 'e' ∧ c ≠ 'E'

theorem Ends.noDigit (ends : Ends rest) : NoDigit rest := by
  cases rest with
  | nil => trivial
  | cons c rest => exact ends.1

theorem digits?_append (nonempty : ds ≠ []) (digits : ∀ c ∈ ds, c.isDigit = true)
    (stop : NoDigit rest) : digits? (ds ++ rest) = some (ds, rest) := by
  obtain ⟨front, back⟩ := takeWhile_digits digits stop
  simp [digits?, front, back, nonempty]

/-- Is the number one that JSON has? -/
structure WellFormed (w : Written) : Prop where
  wholeNonempty : w.whole ≠ []
  wholeDigits : ∀ c ∈ w.whole, c.isDigit = true
  noLeadingZero : ¬ (w.whole.head? = some '0' ∧ 1 < w.whole.length)
  fractionDigits : ∀ c ∈ w.fraction, c.isDigit = true
  exponentNonempty : ∀ negative ds, w.exponent = some (negative, ds) → ds ≠ []
  exponentDigits : ∀ negative ds, w.exponent = some (negative, ds) → ∀ c ∈ ds, c.isDigit = true

variable {w : Written}

theorem noDigit_exponent (ends : Ends rest) : NoDigit (w.exponentChars ++ rest) := by
  unfold Written.exponentChars
  split
  · exact ends.noDigit
  · exact (by decide : 'e'.isDigit = false)

theorem noDigit_fraction (ends : Ends rest) :
    NoDigit (w.fractionChars ++ (w.exponentChars ++ rest)) := by
  unfold Written.fractionChars
  split
  · exact noDigit_exponent ends
  · exact (by decide : '.'.isDigit = false)

theorem whole?_append (formed : WellFormed w) (stop : NoDigit rest) :
    whole? (w.whole ++ rest) = some (w.whole, rest) := by
  have read := digits?_append formed.wholeNonempty formed.wholeDigits stop
  simp [whole?, read, formed.noLeadingZero]

theorem fraction?_append (formed : WellFormed w) (ends : Ends rest) :
    fraction? (w.fractionChars ++ (w.exponentChars ++ rest))
      = some (w.fraction, w.exponentChars ++ rest) := by
  unfold Written.fractionChars
  cases none : w.fraction.isEmpty with
  | true =>
    have nothing : w.fraction = [] := List.isEmpty_iff.1 none
    simp only [if_true, List.nil_append, nothing]
    have noPoint : ∀ more, w.exponentChars ++ rest ≠ '.' :: more := by
      intro more point
      unfold Written.exponentChars at point
      split at point
      · cases rest with
        | nil => cases point
        | cons c rest =>
          cases point
          exact absurd rfl ends.2.1
      · cases point
    unfold fraction?
    split
    · rename_i more point
      exact absurd point (noPoint more)
    · rfl
  | false =>
    have nonempty : w.fraction ≠ [] := fun nothing => by simp [nothing] at none
    simp only [Bool.false_eq_true, if_false, List.cons_append, fraction?]
    exact digits?_append nonempty formed.fractionDigits (noDigit_exponent ends)

theorem exponent?_append (formed : WellFormed w) (ends : Ends rest) :
    exponent? (w.exponentChars ++ rest) = some (w.exponent, rest) := by
  unfold Written.exponentChars
  cases power : w.exponent with
  | none =>
    cases rest with
    | nil => rfl
    | cons c rest => simp [exponent?, ends.2.2.1, ends.2.2.2]
  | some p =>
    obtain ⟨negative, ds⟩ := p
    have read := digits?_append (formed.exponentNonempty negative ds power)
      (formed.exponentDigits negative ds power) ends.noDigit
    cases negative <;> simp [exponent?, read]

def unsigned? (negative : Bool) (s : List Char) : Option (Written × List Char) := do
  let (whole, s) ← whole? s
  let (fraction, s) ← fraction? s
  let (exponent, s) ← exponent? s
  some (⟨negative, whole, fraction, exponent⟩, s)

theorem number?_minus (s : List Char) : number? ('-' :: s) = unsigned? true s := rfl

theorem number?_digit {c : Char} (digit : c.isDigit = true) (s : List Char) :
    number? (c :: s) = unsigned? false (c :: s) := by
  have unsigned : c ≠ '-' := by
    rintro rfl
    exact absurd digit (by decide)
  simp [number?, unsigned?, unsigned]

theorem unsigned?_append (formed : WellFormed w) (ends : Ends rest) :
    unsigned? w.negative (w.whole ++ (w.fractionChars ++ (w.exponentChars ++ rest)))
      = some (w, rest) := by
  simp only [unsigned?, whole?_append formed (noDigit_fraction ends), fraction?_append formed ends,
    exponent?_append formed ends, Option.bind_eq_bind, Option.bind_some]

/-- A written number is read back. -/
theorem number?_chars (formed : WellFormed w) (ends : Ends rest) :
    number? (w.chars ++ rest) = some (w, rest) := by
  have read := unsigned?_append formed ends
  unfold Written.chars
  cases sign : w.negative with
  | true =>
    rw [sign] at read
    simpa only [if_true, List.append_assoc, List.cons_append, List.nil_append, number?_minus]
      using read
  | false =>
    rw [sign] at read
    obtain ⟨d, more, first⟩ := List.exists_cons_of_ne_nil formed.wholeNonempty
    have digit : d.isDigit = true := formed.wholeDigits d (first ▸ List.mem_cons_self)
    rw [first] at read ⊢
    simpa only [Bool.false_eq_true, if_false, List.append_assoc, List.cons_append, List.nil_append,
      number?_digit digit] using read

theorem chars_head (formed : WellFormed w) :
    ∃ c s, w.chars = c :: s ∧ (c = '-' ∨ c.isDigit = true) := by
  obtain ⟨d, more, first⟩ := List.exists_cons_of_ne_nil formed.wholeNonempty
  have digit : d.isDigit = true := formed.wholeDigits d (first ▸ List.mem_cons_self)
  unfold Written.chars
  cases w.negative with
  | true => exact ⟨'-', _, rfl, Or.inl rfl⟩
  | false => exact ⟨d, more ++ w.fractionChars ++ w.exponentChars, by simp [first], Or.inr digit⟩

end Numbers

end NestedBatch.Json
