import Mathlib.Data.List.DropRight
import NestedBatch.Proofs.Text.Digits
import NestedBatch.Text.Blank

/-! Texts that lose nothing when blanks are taken off their ends; those of numbers show no
blanks at all. -/
namespace NestedBatch.Text

variable {s t rest : List Char}

theorem visible_of_all (all : (s.all fun c => !isBlank c) = true) :
    ∀ c ∈ s, isBlank c = false := by
  intro c there
  simpa using List.all_eq_true.1 all c there

theorem isBlank_digit {c : Char} (digit : c.isDigit = true) : isBlank c = false := by
  obtain ⟨low, high⟩ := Char.isDigit_iff_toNat.1 digit
  have from48 : '0'.toNat = 48 := rfl
  have to57 : '9'.toNat = 57 := rfl
  have outside : ∀ r ∈ blankRanges, r.2 < 48 ∨ 57 < r.1 := by decide
  simp only [isBlank, List.any_eq_false, Bool.and_eq_true, decide_eq_true_eq]
  intro r listed
  have := outside r listed
  omega

theorem isBlank_ofInt (n : Int) : ∀ c ∈ Numeral.ofInt n, isBlank c = false := by
  have digits : ∀ m, ∀ c ∈ Numeral.ofNat m, isBlank c = false := by
    intro m c there
    exact isBlank_digit (Numeral.isDigit_of_mem_ofNat there)
  cases n with
  | ofNat m => exact digits m
  | negSucc m => exact List.forall_mem_cons.2 ⟨by decide, digits (m + 1)⟩

theorem trimLeft_cons {c : Char} (visible : isBlank c = false) : trimLeft (c :: rest) = c :: rest :=
  List.dropWhile_cons_of_neg (by rw [visible]; exact Bool.false_ne_true)

theorem trimRight_concat {c : Char} (visible : isBlank c = false) (s : List Char) :
    trimRight (s ++ [c]) = s ++ [c] := by
  have kept : (c :: s.reverse).dropWhile isBlank = c :: s.reverse := trimLeft_cons visible
  rw [trimRight, List.reverse_append, List.reverse_singleton, List.singleton_append, kept,
    List.reverse_cons, List.reverse_reverse]

theorem trimRight_append (nonempty : t ≠ []) (visible : ∀ c ∈ t, isBlank c = false)
    (s : List Char) : trimRight (s ++ t) = s ++ t := by
  have last := visible (t.getLast nonempty) (List.getLast_mem nonempty)
  rw [← List.dropLast_concat_getLast nonempty, ← List.append_assoc]
  exact trimRight_concat last _

theorem trimBlanks_visible (visible : ∀ c ∈ s, isBlank c = false) : trimBlanks s = s := by
  cases s with
  | nil => rfl
  | cons c rest =>
    rw [trimBlanks, trimLeft_cons (visible c List.mem_cons_self)]
    exact trimRight_append (List.cons_ne_nil c rest) visible []

/-- A text that begins with a blank is cut. -/
theorem isBlank_head {c : Char} (trimmed : trimBlanks (c :: rest) = c :: rest) :
    isBlank c = false := by
  cases blank : isBlank c with
  | false => rfl
  | true =>
    have less : (trimBlanks (c :: rest)).length ≤ rest.length := by
      have dropped : trimLeft (c :: rest) = trimLeft rest := List.dropWhile_cons_of_pos blank
      calc (trimBlanks (c :: rest)).length
          = ((trimLeft rest).reverse.dropWhile isBlank).length := by
            rw [trimBlanks, dropped, trimRight, List.length_reverse]
        _ ≤ (trimLeft rest).reverse.length := (List.dropWhile_sublist _).length_le
        _ ≤ rest.length := by
            rw [List.length_reverse]
            exact (List.dropWhile_sublist _).length_le
    rw [trimmed, List.length_cons] at less
    omega

theorem trimBlanks_between {c : Char} (visible : isBlank c = false) (nonempty : t ≠ [])
    (visible' : ∀ c ∈ t, isBlank c = false) (rest : List Char) :
    trimBlanks (c :: rest ++ t) = c :: rest ++ t := by
  rw [trimBlanks, List.cons_append, trimLeft_cons visible, ← List.cons_append]
  exact trimRight_append nonempty visible' _

section Gap

variable {gap before after : List Char}

theorem trimLeft_append_blank (blank : ∀ c ∈ gap, isBlank c = true) (s : List Char) :
    trimLeft (gap ++ s) = trimLeft s :=
  List.dropWhile_append_of_pos blank

theorem trimRight_append_blank (blank : ∀ c ∈ gap, isBlank c = true) (s : List Char) :
    trimRight (s ++ gap) = trimRight s := by
  have dropped : (gap.reverse ++ s.reverse).dropWhile isBlank = s.reverse.dropWhile isBlank :=
    trimLeft_append_blank (fun c there => blank c (List.mem_reverse.1 there)) s.reverse
  rw [trimRight, List.reverse_append, dropped, trimRight]

theorem trimBlanks_blank (blank : ∀ c ∈ gap, isBlank c = true) : trimBlanks gap = [] := by
  have dropped : trimLeft gap = [] := List.dropWhile_eq_nil_iff.2 blank
  rw [trimBlanks, dropped]
  rfl

/-- Blanks around a text are cut off. -/
theorem trimBlanks_around (trimmed : trimBlanks s = s) (blank : ∀ c ∈ before, isBlank c = true)
    (blank' : ∀ c ∈ after, isBlank c = true) : trimBlanks (before ++ s ++ after) = s := by
  rw [trimBlanks, List.append_assoc, trimLeft_append_blank blank]
  cases s with
  | nil => exact trimBlanks_blank blank'
  | cons c rest =>
    have visible := isBlank_head trimmed
    rw [List.cons_append, trimLeft_cons visible, ← List.cons_append,
      trimRight_append_blank blank']
    rwa [trimBlanks, trimLeft_cons visible] at trimmed

end Gap

theorem trimRight_cons {c : Char} (visible : isBlank c = false) (rest : List Char) :
    trimRight (c :: rest) = c :: trimRight rest := by
  have kept : (rest.reverse ++ [c]).dropWhile isBlank = rest.reverse.dropWhile isBlank ++ [c] := by
    have single : [c].dropWhile isBlank = [c] := trimLeft_cons visible
    rw [List.dropWhile_append, single]
    split
    · rename_i nothing
      rw [List.isEmpty_iff.1 nothing, List.nil_append]
    · rfl
  rw [trimRight, List.reverse_cons, kept, List.reverse_append]
  rfl

theorem trimBlanks_blank_cons {gap : List Char} {c : Char} (blank : ∀ c ∈ gap, isBlank c = true)
    (visible : isBlank c = false) (rest : List Char) :
    trimBlanks (gap ++ c :: rest) = c :: trimRight rest := by
  rw [trimBlanks, trimLeft_append_blank blank, trimLeft_cons visible, trimRight_cons visible]

/-- A text whose blanks are cut off is cut no further. -/
theorem trimBlanks_trimBlanks (s : List Char) : trimBlanks (trimBlanks s) = trimBlanks s := by
  rw [trimBlanks, trimBlanks]
  cases left : trimLeft s with
  | nil => rfl
  | cons c rest =>
    have visible : isBlank c = false := by
      have first := List.head?_dropWhile_not isBlank s
      rw [show s.dropWhile isBlank = c :: rest from left] at first
      simpa using first
    rw [trimRight_cons visible, trimLeft_cons visible, trimRight_cons visible]
    exact congrArg (c :: ·) (List.rdropWhile_idempotent isBlank rest)

/-- Only blanks are cut off. -/
theorem exists_around (s : List Char) : ∃ before after, s = before ++ trimBlanks s ++ after ∧
    (∀ c ∈ before, isBlank c = true) ∧ ∀ c ∈ after, isBlank c = true := by
  have left : s.takeWhile isBlank ++ trimLeft s = s := List.takeWhile_append_dropWhile
  have right : trimBlanks s ++ (trimLeft s).rtakeWhile isBlank = trimLeft s :=
    List.rdropWhile_append_rtakeWhile
  refine ⟨s.takeWhile isBlank, (trimLeft s).rtakeWhile isBlank, ?_,
    fun _ => List.mem_takeWhile_imp, fun _ => List.mem_rtakeWhile_imp⟩
  rw [List.append_assoc, right, left]

/-- A text that ends with a blank is cut. -/
theorem isBlank_last {c : Char} (trimmed : trimBlanks (s ++ [c]) = s ++ [c]) :
    isBlank c = false := by
  have again := List.rdropWhile_idempotent isBlank (trimLeft (s ++ [c]))
  rw [show (trimLeft (s ++ [c])).rdropWhile isBlank = s ++ [c] from trimmed] at again
  simpa using List.rdropWhile_eq_self_iff.1 again

theorem trimBlanks_concat {c : Char} (first : ∀ d, (s ++ [c]).head? = some d → isBlank d = false)
    (last : isBlank c = false) : trimBlanks (s ++ [c]) = s ++ [c] := by
  have single : ∀ d ∈ [c], isBlank d = false := by
    intro d there
    rwa [List.mem_singleton.1 there]
  cases s with
  | nil => exact trimBlanks_visible single
  | cons d rest => exact trimBlanks_between (first d rfl) (List.cons_ne_nil c []) single rest

/-- What stands before a text that has no blanks at its ends takes no part in the cut behind it. -/
theorem trimRight_append_trimmed (trimmed : trimBlanks s = s) (some : s ≠ [])
    (before : List Char) : trimRight (before ++ s) = before ++ s := by
  obtain rfl | ⟨init, c, rfl⟩ := s.eq_nil_or_concat
  · contradiction
  · rw [List.concat_eq_append] at trimmed ⊢
    rw [← List.append_assoc]
    exact trimRight_concat (isBlank_last trimmed) _

end NestedBatch.Text
