import Mathlib.Data.String.Basic
import NestedBatch.Text.Cut

/-! Texts as the bytes that they are kept in. A part of a text is told by the offsets of its
first byte and of the first byte behind it, which have to be at the borders of characters. -/
namespace NestedBatch.Text

/-- There is no part where an offset is beyond the end or within a character, or where the
first offset is behind the last one. -/
def slice? (s : String) (first last : Nat) : Option String :=
  if first ≤ last ∧ String.Pos.Raw.isValid s ⟨first⟩ = true ∧
      String.Pos.Raw.isValid s ⟨last⟩ = true then
    some (String.Pos.Raw.extract s ⟨first⟩ ⟨last⟩)
  else none

def lastOffset? (mark : Char) (s : String) : Option Nat :=
  (cutLast mark s.toList).map fun p => (String.ofList p.1).utf8ByteSize

variable {s part : String} {first last : Nat}

theorem isValid_iff {offset : Nat} :
    String.Pos.Raw.isValid s ⟨offset⟩ = true ↔
      ∃ before after, s = before ++ after ∧ offset = before.utf8ByteSize := by
  rw [String.Pos.Raw.isValid_eq_true_iff, String.Pos.Raw.isValid_iff_exists_append]
  refine exists_congr fun before => exists_congr fun after => and_congr_right fun _ => ?_
  exact String.Pos.Raw.ext_iff

theorem extract_append (before part after : String) :
    String.Pos.Raw.extract (before ++ part ++ after) ⟨before.utf8ByteSize⟩
      ⟨(before ++ part).utf8ByteSize⟩ = part := by
  have bytes := String.extract_of_valid before.toList part.toList after.toList
  simpa only [← String.utf8ByteSize_ofList, String.ofList_append, String.ofList_toList,
    ← String.utf8ByteSize_append] using bytes

/-- Of two ways to cut a text, the longer first part begins with the shorter one. -/
theorem eq_append_of_le {a b a' b' : String} (same : a ++ b = a' ++ b')
    (le : a.utf8ByteSize ≤ a'.utf8ByteSize) : ∃ between, a' = a ++ between := by
  have lists := congrArg String.toList same
  rw [String.toList_append, String.toList_append] at lists
  rcases List.append_eq_append_iff.1 lists with ⟨between, longer, _⟩ | ⟨between, longer, _⟩
  · exact ⟨String.ofList between, String.toList_injective (by simpa using longer)⟩
  · have split : a = a' ++ String.ofList between := String.toList_injective (by simpa using longer)
    have sizes := congrArg String.utf8ByteSize split
    rw [String.utf8ByteSize_append] at sizes
    have none : String.ofList between = "" := String.utf8ByteSize_eq_zero_iff.1 (by omega)
    exact ⟨"", by rw [split, none, String.append_empty, String.append_empty]⟩

/-- A part lies between what is before it and what is after it. -/
theorem slice?_eq_some :
    slice? s first last = some part ↔ ∃ before after, s = before ++ part ++ after ∧
      first = before.utf8ByteSize ∧ last = (before ++ part).utf8ByteSize := by
  constructor
  · intro sliced
    simp only [slice?, Option.ite_none_right_eq_some, Option.some.injEq] at sliced
    obtain ⟨⟨order, validFirst, validLast⟩, taken⟩ := sliced
    obtain ⟨before, rest, rfl, rfl⟩ := isValid_iff.1 validFirst
    obtain ⟨front, after, same, rfl⟩ := isValid_iff.1 validLast
    obtain ⟨between, rfl⟩ := eq_append_of_le same order
    rw [same, extract_append] at taken
    subst taken
    exact ⟨before, after, same, rfl, rfl⟩
  · rintro ⟨before, after, rfl, rfl, rfl⟩
    have order : before.utf8ByteSize ≤ (before ++ part).utf8ByteSize := by
      rw [String.utf8ByteSize_append]
      exact Nat.le_add_right _ _
    have validFirst := isValid_iff.2 ⟨before, part ++ after, String.append_assoc .., rfl⟩
    have validLast := isValid_iff.2 ⟨before ++ part, after, rfl, rfl⟩
    rw [slice?, if_pos ⟨order, validFirst, validLast⟩, extract_append]

/-- An offset within a character tells no part, and neither does one beyond the end. -/
example : slice? "né" 1 2 = none ∧ slice? "né" 1 3 = some "é" ∧ slice? "né" 1 4 = none := by
  decide

end NestedBatch.Text
