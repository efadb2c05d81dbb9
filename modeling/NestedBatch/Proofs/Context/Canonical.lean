import NestedBatch.Proofs.Context.Inference
import NestedBatch.Proofs.Parameter.Assignment
import NestedBatch.Proofs.Text.Canonical

/-! Which value is inferred from a text. A number is inferred exactly from the text in which it
is written, and each text is that of one value at most, so that the kinds of values do not meet. -/
namespace NestedBatch.ContextValue

open Numeral (Canonical)

variable {raw : String}

theorem longOf?_eq_some {n : Int64} : longOf? raw = some n ↔ Canonical raw.toList n.toInt := by
  have written : longText n = raw ↔ Canonical raw.toList n.toInt := by
    rw [Numeral.canonical_iff, longText, Numeral.intText, ← String.toList_inj,
      String.toList_ofList]
  rw [← written]
  constructor
  · exact longText_of_longOf?
  · rintro rfl
    have read : readLong (longText n).toList = .ok n := by
      have visible : Text.trimBlanks (longText n).toList = (longText n).toList := by
        rw [longText, Numeral.intText, String.toList_ofList]
        exact Text.trimBlanks_visible (Text.isBlank_ofInt n.toInt)
      rw [← visible, readLong_longText]
    simp [longOf?, read, Except.toOption]

theorem doubleOf?_eq_some {d : Double} :
    doubleOf? raw = some d ↔ d.isFinite = true ∧ d.text = raw := by
  constructor
  · exact of_doubleOf?
  · rintro ⟨finite, rfl⟩
    have read : Double.read d.text.toList = some d := by
      rw [Double.text, String.toList_ofList, Double.read_chars finite]
    simp [doubleOf?, read, finite]

/-- The text is that of no integer of 64 bits. -/
def NoLong (raw : String) : Prop := ∀ n : Int64, ¬ Canonical raw.toList n.toInt

theorem longOf?_eq_none : longOf? raw = none ↔ NoLong raw := by
  simp only [Option.eq_none_iff_forall_ne_some, ne_eq, longOf?_eq_some, NoLong]

/-- The text is that of no finite double. -/
def NoDouble (raw : String) : Prop := ∀ d : Double, d.isFinite = true → d.text ≠ raw

theorem doubleOf?_eq_none : doubleOf? raw = none ↔ NoDouble raw := by
  simp only [Option.eq_none_iff_forall_ne_some, ne_eq, doubleOf?_eq_some, not_and, NoDouble]

theorem infer_of_long {n : Int64} (read : longOf? raw = some n) : infer raw = .long n := by
  simp only [infer, read]

theorem infer_of_double {d : Double} (absent : longOf? raw = none)
    (read : doubleOf? raw = some d) : infer raw = .double d := by
  simp only [infer, absent, read]

theorem infer_of_none (absent : longOf? raw = none) (absent' : doubleOf? raw = none) :
    infer raw = if raw = "true" then .bool true else if raw = "false" then .bool false
      else .string raw := by
  simp only [infer, absent, absent']

theorem infer_bool (b : Bool) : infer (if b then "true" else "false") = .bool b := by
  have absent : longOf? (if b then "true" else "false") = none := by cases b <;> decide
  have absent' : doubleOf? (if b then "true" else "false") = none := by cases b <;> decide
  rw [infer_of_none absent absent']
  cases b <;> rfl

theorem infer_eq_long {n : Int64} : infer raw = .long n ↔ Canonical raw.toList n.toInt := by
  rw [← longOf?_eq_some]
  refine ⟨fun inferred => ?_, infer_of_long⟩
  rcases infer_cases raw with ⟨m, read, eq⟩ | ⟨d, _, _, eq⟩ | ⟨_, eq⟩ | ⟨_, eq⟩ | eq <;>
    rw [eq] at inferred <;> cases inferred
  exact read

theorem infer_eq_double {d : Double} :
    infer raw = .double d ↔ d.isFinite = true ∧ d.text = raw ∧ NoLong raw := by
  rw [← and_assoc, ← doubleOf?_eq_some, ← longOf?_eq_none]
  refine ⟨fun inferred => ?_, fun ⟨read, absent⟩ => infer_of_double absent read⟩
  rcases infer_cases raw with ⟨m, _, eq⟩ | ⟨d', absent, read, eq⟩ | ⟨_, eq⟩ | ⟨_, eq⟩ | eq <;>
    rw [eq] at inferred <;> cases inferred
  exact ⟨read, absent⟩

theorem infer_eq_bool {b : Bool} : infer raw = .bool b ↔ raw = if b then "true" else "false" := by
  constructor
  · intro inferred
    rcases infer_cases raw with ⟨m, _, eq⟩ | ⟨d, _, _, eq⟩ | ⟨yes, eq⟩ | ⟨no, eq⟩ | eq <;>
      rw [eq] at inferred <;> cases inferred
    · exact yes
    · exact no
  · rintro rfl
    exact infer_bool b

theorem infer_eq_string {s : String} :
    infer raw = .string s ↔
      s = raw ∧ NoLong raw ∧ NoDouble raw ∧ raw ≠ "true" ∧ raw ≠ "false" := by
  constructor
  · intro inferred
    have same : s = raw := by
      have told := text_infer raw
      rwa [inferred] at told
    refine ⟨same, fun n written => ?_, fun d finite written => ?_, ?_, ?_⟩
    · rw [infer_eq_long.2 written] at inferred
      cases inferred
    · cases absent : longOf? raw with
      | some n =>
        rw [infer_of_long absent] at inferred
        cases inferred
      | none =>
        rw [infer_of_double absent (doubleOf?_eq_some.2 ⟨finite, written⟩)] at inferred
        cases inferred
    · rintro rfl
      cases (infer_bool true).symm.trans inferred
    · rintro rfl
      cases (infer_bool false).symm.trans inferred
  · rintro ⟨rfl, noLong, noDouble, notTrue, notFalse⟩
    rw [infer_of_none (longOf?_eq_none.2 noLong) (doubleOf?_eq_none.2 noDouble), if_neg notTrue,
      if_neg notFalse]

theorem infer_text_long (n : Int64) : infer (ContextValue.long n).text = .long n := by
  rw [infer_eq_long, Numeral.canonical_iff, text, longText, Numeral.intText,
    String.toList_ofList]

/-- A text is taken for an integer exactly if it is how that integer is written, for a double
exactly if it is how that finite double is written and no integer is, for a truth value
exactly if it is its name, and for itself in all other cases. Dates and parameters are never
inferred. So an integer and a truth value are inferred from their own texts. -/
theorem inferred_from_own_text (raw : String) :
    (∀ n : Int64, infer raw = .long n ↔ Canonical raw.toList n.toInt) ∧
      (∀ d, infer raw = .double d ↔ d.isFinite = true ∧ d.text = raw ∧ NoLong raw) ∧
      (∀ b, infer raw = .bool b ↔ raw = if b then "true" else "false") ∧
      (∀ s, infer raw = .string s ↔
        s = raw ∧ NoLong raw ∧ NoDouble raw ∧ raw ≠ "true" ∧ raw ≠ "false") ∧
      ((∀ t, infer raw ≠ .date t) ∧ ∀ p, infer raw ≠ .parameters p) ∧
      (∀ n : Int64, infer (ContextValue.long n).text = .long n) ∧
      ∀ b : Bool, infer (ContextValue.bool b).text = .bool b := by
  refine ⟨fun n => infer_eq_long, fun d => infer_eq_double, fun b => infer_eq_bool,
    fun s => infer_eq_string, ⟨fun t inferred => ?_, infer_ne_parameters⟩, infer_text_long,
    infer_bool⟩
  rcases infer_cases raw with ⟨m, _, eq⟩ | ⟨d, _, _, eq⟩ | ⟨_, eq⟩ | ⟨_, eq⟩ | eq <;>
    rw [eq] at inferred <;> cases inferred

/-- The integer below the least one is no number here, since the nearest double is written in
another way; a zero with a sign is a double. -/
example : (infer "-9223372036854775808").typeName = "long" ∧
    (infer "-9223372036854775809").typeName = "string" ∧
    (infer "-0").typeName = "double" := by decide +kernel

end NestedBatch.ContextValue
