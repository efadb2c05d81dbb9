import NestedBatch.Proofs.Parameter.Spacing
import NestedBatch.Proofs.Text.Slice

/-! The type at the end of a name. It is split off exactly where it is one of the known words
between the last opening bracket and a closing bracket at the end of the text, and nothing of
the text before that bracket is changed. Cut by the offsets of its bytes the text falls into
the same parts, and none of the cuts can fail. -/
namespace NestedBatch

namespace ParameterType

/-- The words that name a type behind a key. -/
def spellings : ParameterType → List String
  | .string => ["string"]
  | .long => ["long", "int"]
  | .double => ["double"]
  | .date => ["date"]

theorem ofSuffix?_eq_some {word : String} {type : ParameterType} :
    ofSuffix? word = some type ↔ word ∈ type.spellings := by
  constructor
  · intro known
    have listed := mem_of_ofSuffix? known
    simp only [List.mem_cons, List.not_mem_nil, or_false] at listed
    rcases listed with rfl | rfl | rfl | rfl | rfl <;> cases known <;> decide
  · intro spelt
    cases type <;> simp only [spellings, List.mem_cons, List.not_mem_nil, or_false] at spelt
    case long => rcases spelt with rfl | rfl <;> rfl
    all_goals subst spelt; rfl

end ParameterType

namespace KeySpec

open Text

variable {text name word : String} {type : ParameterType} {before rest : List Char}

theorem not_mem_closed (spelt : word ∈ type.spellings) : '(' ∉ word.toList ++ [')'] := by
  have all : ∀ word ∈ type.spellings, '(' ∉ word.toList ++ [')'] := by cases type <;> decide
  exact all word spelt

theorem toList_bracketed (name word : String) :
    (name ++ "(" ++ word ++ ")").toList = name.toList ++ '(' :: (word.toList ++ [')']) := by
  simp [String.toList_append]

/-- The word between the brackets, if the text is closed behind the last bracket opened. -/
theorem bracketed_of_cut (cut : cutLast '(' text.toList = some (before, rest))
    (closed : rest.getLast? = some ')') :
    text = String.ofList before ++ "(" ++ String.ofList rest.dropLast ++ ")" := by
  apply String.toList_injective
  rw [toList_bracketed, String.toList_ofList, String.toList_ofList,
    List.dropLast_append_getLast? ')' closed]
  exact eq_of_cutLast cut

theorem closed_iff (cut : cutLast '(' text.toList = some (before, rest)) :
    text.toList.getLast? = some ')' ↔ rest.getLast? = some ')' := by
  rw [eq_of_cutLast cut]
  cases rest with
  | nil => simp
  | cons c rest => simp [List.getLast?_append, List.getLast?_cons]

theorem ofText_open (cut : cutLast '(' text.toList = some (before, rest))
    (unclosed : rest.getLast? ≠ some ')') : ofText text = ⟨text, none⟩ := by
  simp only [ofText, cut, suffixType?, if_neg unclosed]

theorem ofText_closed (cut : cutLast '(' text.toList = some (before, rest))
    (closed : rest.getLast? = some ')') :
    ofText text = ((ParameterType.ofSuffix? (String.ofList rest.dropLast)).map fun type =>
      ⟨String.ofList before, some type⟩).getD ⟨text, none⟩ := by
  simp only [ofText, cut, suffixType?, if_pos closed]
  cases ParameterType.ofSuffix? (String.ofList rest.dropLast) <;> rfl

theorem ofText_bracketed (name : String) (spelt : word ∈ type.spellings) :
    ofText (name ++ "(" ++ word ++ ")") = ⟨name, some type⟩ := by
  have known := ParameterType.ofSuffix?_eq_some.2 spelt
  have split := Suffix.ofText_append ⟨word, type, known⟩ name.toList
  rwa [Suffix.text, ← toList_bracketed, String.ofList_toList, String.ofList_toList] at split

/-- A text has no type, or it ends with a word for its type in brackets. -/
theorem ofText_split (text : String) :
    ofText text = ⟨text, none⟩ ∨
      ∃ name type, ofText text = ⟨name, some type⟩ ∧
        ∃ word ∈ type.spellings, text = name ++ "(" ++ word ++ ")" := by
  cases cut : cutLast '(' text.toList with
  | none => exact .inl (ofText_unbracketed (cutLast_eq_none.1 cut))
  | some parts =>
    obtain ⟨before, rest⟩ := parts
    by_cases closed : rest.getLast? = some ')'
    · have split := ofText_closed cut closed
      cases known : ParameterType.ofSuffix? (String.ofList rest.dropLast) with
      | none =>
        rw [known] at split
        exact .inl split
      | some type =>
        rw [known] at split
        exact .inr ⟨_, type, split, _, ParameterType.ofSuffix?_eq_some.1 known,
          bracketed_of_cut cut closed⟩
    · exact .inl (ofText_open cut closed)

theorem ofText_eq_some_iff :
    ofText text = ⟨name, some type⟩ ↔
      ∃ word ∈ type.spellings, text = name ++ "(" ++ word ++ ")" := by
  constructor
  · intro split
    rcases ofText_split text with whole | ⟨_, _, eq, typed⟩
    · cases split.symm.trans whole
    · cases split.symm.trans eq
      exact typed
  · rintro ⟨word, spelt, rfl⟩
    exact ofText_bracketed name spelt

/-- Splits a text as the bytes of it lie. `none` is for a cut that is out of range or within a
character. -/
def ofBytes? (text : String) : Option KeySpec :=
  match lastOffset? '(' text with
  | none => some ⟨text, none⟩
  | some mark =>
    if text.toList.getLast? = some ')' then
      match slice? text (mark + 1) (text.utf8ByteSize - 1) with
      | none => none
      | some word =>
        match ParameterType.ofSuffix? word with
        | none => some ⟨text, none⟩
        | some type => (slice? text 0 mark).map fun name => ⟨name, some type⟩
    else some ⟨text, none⟩

theorem slice?_inner (name word : String) :
    slice? (name ++ "(" ++ word ++ ")") (name.utf8ByteSize + 1)
      ((name ++ "(" ++ word ++ ")").utf8ByteSize - 1) = some word := by
  have front : (name ++ "(").utf8ByteSize = name.utf8ByteSize + 1 := String.utf8ByteSize_append
  have whole : (name ++ "(" ++ word ++ ")").utf8ByteSize
      = (name ++ "(" ++ word).utf8ByteSize + 1 := String.utf8ByteSize_append
  exact slice?_eq_some.2 ⟨name ++ "(", ")", rfl, front.symm, by omega⟩

theorem slice?_name (name word : String) :
    slice? (name ++ "(" ++ word ++ ")") 0 name.utf8ByteSize = some name := by
  refine slice?_eq_some.2 ⟨"", "(" ++ word ++ ")", ?_, rfl, ?_⟩
  · rw [String.empty_append, String.append_assoc, String.append_assoc, String.append_assoc]
  · rw [String.empty_append]

/-- The cuts are at the borders of characters, since brackets are kept in one byte each. -/
theorem ofBytes?_eq (text : String) : ofBytes? text = some (ofText text) := by
  cases cut : cutLast '(' text.toList with
  | none =>
    rw [ofText_unbracketed (cutLast_eq_none.1 cut)]
    simp only [ofBytes?, lastOffset?, cut, Option.map_none]
  | some parts =>
    obtain ⟨before, rest⟩ := parts
    simp only [ofBytes?, lastOffset?, cut, Option.map_some, closed_iff cut]
    by_cases closed : rest.getLast? = some ')'
    · have inner := slice?_inner (String.ofList before) (String.ofList rest.dropLast)
      have front := slice?_name (String.ofList before) (String.ofList rest.dropLast)
      rw [← bracketed_of_cut cut closed] at inner front
      rw [if_pos closed, inner, ofText_closed cut closed]
      dsimp only
      cases ParameterType.ofSuffix? (String.ofList rest.dropLast) with
      | none => rfl
      | some type => simp only [front, Option.map_some, Option.getD_some]
    · rw [if_neg closed, ofText_open cut closed]

/-- A text has a type exactly if it ends with one of the words for it in brackets, and then
the name is all that stands before the last opening bracket; otherwise the name is the text.
The cuts that this takes can be made by bytes, whatever characters the text has. -/
theorem split_at_known_type (text : String) :
    (∀ name type, ofText text = ⟨name, some type⟩ ↔
        ∃ word ∈ type.spellings, text = name ++ "(" ++ word ++ ")") ∧
      (∀ name type, ofText text = ⟨name, some type⟩ →
        ∃ after, text.toList = name.toList ++ '(' :: after ∧ '(' ∉ after) ∧
      ((¬ ∃ name type, ∃ word ∈ ParameterType.spellings type,
        text = name ++ "(" ++ word ++ ")") → ofText text = ⟨text, none⟩) ∧
      ofBytes? text = some (ofText text) := by
  refine ⟨fun _ _ => ofText_eq_some_iff, ?_, ?_, ofBytes?_eq text⟩
  · intro name type split
    obtain ⟨word, spelt, rfl⟩ := ofText_eq_some_iff.1 split
    exact ⟨_, toList_bracketed name word, not_mem_closed spelt⟩
  · intro untyped
    rcases ofText_split text with whole | ⟨name, type, _, word, spelt, typed⟩
    · exact whole
    · exact absurd ⟨name, type, word, spelt, typed⟩ untyped

/-- Only the last brackets count, and they have to hold a known word and nothing else. -/
example : ofText "n(long)(int)" = ⟨"n(long)", some .long⟩ ∧
    ofText "ñ((date)" = ⟨"ñ(", some .date⟩ ∧ ofText "n((long))" = ⟨"n((long))", none⟩ := by
  decide

end KeySpec

end NestedBatch
