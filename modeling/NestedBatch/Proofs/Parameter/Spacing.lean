import NestedBatch.Proofs.Parameter.Assignment

/-! Blanks in an assignment. Those behind the dash and those before the equals sign are lost.
A blank before the dash hides it, and one between the name and its type stays in the name. -/
namespace NestedBatch

open Text

namespace ParameterType

theorem mem_of_ofSuffix? {word : String} {type : ParameterType}
    (known : ofSuffix? word = some type) :
    word ∈ ["string", "long", "int", "double", "date"] := by
  by_contra absent
  simp only [List.mem_cons, List.not_mem_nil, or_false, not_or] at absent
  obtain ⟨string, long, int, double, date⟩ := absent
  simp [ofSuffix?, string, long, int, double, date] at known

/-- The name of a parameter has no part in its value. -/
theorem read_cases (type : ParameterType) (raw : String) :
    (∃ v, ∀ name, type.read name raw = .ok v) ∨
      ∀ name, type.read name raw = .error (.notValid raw name type) := by
  unfold ParameterType.read
  dsimp only
  split
  · exact .inl ⟨_, fun _ => rfl⟩
  · exact .inr fun _ => rfl

end ParameterType

namespace KeySpec

/-- A known type in brackets. -/
structure Suffix where
  word : String
  type : ParameterType
  known : ParameterType.ofSuffix? word = some type

namespace Suffix

variable (s : Suffix)

def text : List Char := '(' :: (s.word.toList ++ [')'])

theorem text_ne_nil : s.text ≠ [] := List.cons_ne_nil _ _

theorem isBlank_text : ∀ c ∈ s.text, isBlank c = false := by
  have all : ∀ word ∈ ["string", "long", "int", "double", "date"],
      (('(' :: (word.toList ++ [')'])).all fun c => !isBlank c) = true := by decide
  exact visible_of_all (all _ (ParameterType.mem_of_ofSuffix? s.known))

theorem not_mem_text : '=' ∉ s.text := by
  have all : ∀ word ∈ ["string", "long", "int", "double", "date"],
      '=' ∉ '(' :: (word.toList ++ [')']) := by decide
  exact all _ (ParameterType.mem_of_ofSuffix? s.known)

theorem ofText_append (name : List Char) :
    ofText (String.ofList (name ++ s.text)) = ⟨String.ofList name, some s.type⟩ := by
  have all : ∀ word ∈ ["string", "long", "int", "double", "date"],
      '(' ∉ word.toList ++ [')'] := by decide
  have told : suffixType? (s.word.toList ++ [')']) = some s.type := by
    simp [suffixType?, s.known]
  rw [ofText, String.toList_ofList, text,
    cutLast_append (all _ (ParameterType.mem_of_ofSuffix? s.known))]
  simp only [told]

end Suffix

theorem ofText_unbracketed {text : String} (absent : '(' ∉ text.toList) :
    ofText text = ⟨text, none⟩ := by
  rw [ofText, cutLast_eq_none.2 absent]

/-- The name is all of the text or what stands before a type in brackets. -/
theorem ofText_cases (text : String) :
    ofText text = ⟨text, none⟩ ∨
      ∃ s : Suffix, text.toList = (ofText text).name.toList ++ s.text := by
  unfold ofText
  cases cut : cutLast '(' text.toList with
  | none => exact .inl rfl
  | some parts =>
    obtain ⟨name, rest⟩ := parts
    cases told : suffixType? rest with
    | none => exact .inl (by simp only [told])
    | some type =>
      refine .inr ?_
      unfold suffixType? at told
      split at told
      · rename_i closed
        have told' : suffixType? rest = some type := by rw [suffixType?, if_pos closed, told]
        refine ⟨⟨_, type, told⟩, ?_⟩
        have last := List.dropLast_append_getLast? ')' closed
        simp only [told', eq_of_cutLast cut, Suffix.text, String.toList_ofList, last]
      · cases told

end KeySpec

namespace Parameter

variable {given name : String} {p : Parameter}

theorem ofSpec_eq_ok {identifying : Bool} {raw : List Char} {spec : KeySpec}
    (accepted : ofSpec given identifying raw spec = .ok (name, p)) :
    spec.name = name ∧ name ≠ "" ∧
      (spec.type.getD .string).read name (String.ofList raw) = .ok p.value := by
  unfold ofSpec at accepted
  split at accepted
  · cases accepted
  · rename_i some
    cases read : (spec.type.getD .string).read spec.name (String.ofList raw) with
    | error fault => rw [read] at accepted; cases accepted
    | ok value =>
      rw [read] at accepted
      cases accepted
      exact ⟨rfl, some, read⟩

/-- An accepted assignment comes down to a text without blanks at its ends, from which the
name and its type are told. -/
theorem ofAssignment_eq_ok (accepted : ofAssignment given = .ok (name, p)) :
    ∃ front raw before spec after, cutFirst '=' given.toList = some (front, raw) ∧
      front = before ++ spec ++ after ∧ '(' ∉ before ∧ (∀ c ∈ after, isBlank c = true) ∧
      trimBlanks spec = spec ∧ (KeySpec.ofText (String.ofList spec)).name = name ∧ name ≠ "" ∧
      ((KeySpec.ofText (String.ofList spec)).type.getD .string).read name (String.ofList raw)
        = .ok p.value := by
  have unbracketed : ∀ gap : List Char, (∀ c ∈ gap, isBlank c = true) → '(' ∉ gap :=
    fun gap blank there => absurd (blank '(' there) (by decide)
  cases cut : cutFirst '=' given.toList with
  | none => simp only [ofAssignment, cut, reduceCtorEq] at accepted
  | some parts =>
    obtain ⟨front, raw⟩ := parts
    by_cases dashed : front.head? = some '-'
    · obtain ⟨rest, rfl⟩ := List.head?_eq_some_iff.1 dashed
      rw [ofAssignment_dashed cut] at accepted
      obtain ⟨before, after, around, blank, blank'⟩ := exists_around rest
      have outside : '(' ∉ '-' :: before :=
        List.not_mem_cons_of_ne_of_not_mem (by decide) (unbracketed before blank)
      exact ⟨_, raw, '-' :: before, _, after, rfl, congrArg ('-' :: ·) around, outside, blank',
        trimBlanks_trimBlanks rest, ofSpec_eq_ok accepted⟩
    · rw [ofAssignment_undashed cut dashed] at accepted
      obtain ⟨before, after, around, blank, blank'⟩ := exists_around front
      exact ⟨_, raw, before, _, after, rfl, around, unbracketed before blank, blank',
        trimBlanks_trimBlanks front, ofSpec_eq_ok accepted⟩

theorem read_of_ofAssignment (accepted : ofAssignment given = .ok (name, p)) :
    ∃ type raw, ParameterType.read type name raw = .ok p.value := by
  obtain ⟨_, _, _, _, _, -, -, -, -, -, -, -, read⟩ := ofAssignment_eq_ok accepted
  exact ⟨_, _, read⟩

/-- The text ends with a known type in brackets, perhaps with blanks behind it, and a blank stands
before it. -/
def BlankBeforeType (front : List Char) : Prop :=
  ∃ stem c after, ∃ s : KeySpec.Suffix,
    front = stem ++ c :: s.text ++ after ∧ isBlank c = true ∧ ∀ c ∈ after, isBlank c = true

section Told

variable {before spec after : List Char}

theorem isBlank_name_head (trimmed : trimBlanks spec = spec) {c : Char}
    (first : (KeySpec.ofText (String.ofList spec)).name.toList.head? = some c) :
    isBlank c = false := by
  obtain ⟨rest, begins⟩ := List.head?_eq_some_iff.1 first
  rcases KeySpec.ofText_cases (String.ofList spec) with whole | ⟨s, parts⟩
  · rw [whole, String.toList_ofList] at begins
    rw [begins] at trimmed
    exact isBlank_head trimmed
  · rw [String.toList_ofList, begins, List.cons_append] at parts
    rw [parts] at trimmed
    exact isBlank_head trimmed

/-- A blank before the type is told to be the end of the name. -/
theorem name_of_blankBeforeType (outside : '(' ∉ before)
    (blank : ∀ c ∈ after, isBlank c = true) (trimmed : trimBlanks spec = spec)
    (some : (KeySpec.ofText (String.ofList spec)).name ≠ "")
    (gap : BlankBeforeType (before ++ spec ++ after)) :
    ∃ stem c, isBlank c = true ∧
      (KeySpec.ofText (String.ofList spec)).name = String.ofList (stem ++ [c]) := by
  obtain ⟨stem, c, after', s, same, blankLast, blank'⟩ := gap
  have nonempty : spec ≠ [] := by
    rintro rfl
    exact some rfl
  have cut : before ++ spec = stem ++ c :: s.text := by
    have kept : trimRight (stem ++ c :: s.text) = stem ++ c :: s.text := by
      rw [List.append_cons]
      exact trimRight_append s.text_ne_nil s.isBlank_text _
    rw [← trimRight_append_trimmed trimmed nonempty before, ← trimRight_append_blank blank, same,
      trimRight_append_blank blank', kept]
  rcases List.append_eq_append_iff.1 cut with ⟨rest, -, rfl⟩ | ⟨skipped, rfl, parts⟩
  · refine ⟨rest, c, blankLast, ?_⟩
    rw [List.append_cons, s.ofText_append]
  · rcases List.cons_eq_append_iff.1 parts with ⟨rfl, rfl⟩ | ⟨skipped, rfl, inText⟩
    · rw [isBlank_head trimmed] at blankLast
      cases blankLast
    · rcases List.cons_eq_append_iff.1 inText with ⟨rfl, rfl⟩ | ⟨_, rfl, -⟩
      · exact absurd (congrArg KeySpec.name (s.ofText_append [])) some
      · simp at outside

/-- The name that is told loses nothing when it is trimmed, unless a blank stands before its
type. -/
theorem trim_name_iff (outside : '(' ∉ before) (blank : ∀ c ∈ after, isBlank c = true)
    (trimmed : trimBlanks spec = spec) (some : (KeySpec.ofText (String.ofList spec)).name ≠ "") :
    Text.trim (KeySpec.ofText (String.ofList spec)).name
        = (KeySpec.ofText (String.ofList spec)).name ↔
      ¬ BlankBeforeType (before ++ spec ++ after) := by
  constructor
  · intro same gap
    obtain ⟨stem, c, blankLast, ends⟩ := name_of_blankBeforeType outside blank trimmed some gap
    rw [ends, Text.trim, String.toList_ofList] at same
    rw [isBlank_last (String.ofList_injective same)] at blankLast
    cases blankLast
  · intro apart
    have first := fun c => isBlank_name_head (c := c) trimmed
    rcases KeySpec.ofText_cases (String.ofList spec) with whole | ⟨s, parts⟩
    · rw [whole, Text.trim, String.toList_ofList, trimmed]
    · generalize (KeySpec.ofText (String.ofList spec)).name = name at some first parts
      obtain nothing | ⟨stem, c, ends⟩ := name.toList.eq_nil_or_concat
      · exact absurd (String.toList_eq_nil_iff.1 nothing) some
      · rw [List.concat_eq_append] at ends
        rw [String.toList_ofList, ends] at parts
        rw [ends] at first
        cases last : isBlank c with
        | true =>
          refine absurd ⟨before ++ stem, c, after, s, ?_, last, blank⟩ apart
          simp [parts]
        | false =>
          rw [Text.trim, ends, trimBlanks_concat first last, ← ends, String.ofList_toList]

end Told

/-- An accepted name begins with no blank, and it ends with one exactly if there is one before
the type. -/
theorem trim_name (accepted : ofAssignment given = .ok (name, p)) :
    ∃ front raw, cutFirst '=' given.toList = some (front, raw) ∧
      (∀ c, name.toList.head? = some c → isBlank c = false) ∧
      (Text.trim name = name ↔ ¬ BlankBeforeType front) := by
  obtain ⟨_, raw, before, spec, after, cut, rfl, outside, blank, trimmed, rfl, some, -⟩ :=
    ofAssignment_eq_ok accepted
  exact ⟨_, raw, cut, fun _ => isBlank_name_head trimmed, trim_name_iff outside blank trimmed some⟩

/-- An assignment in its parts. The name holds nothing that would end it. -/
structure Parts where
  dashed : Bool
  name : List Char
  suffix : Option KeySpec.Suffix
  raw : List Char
  told : ∀ c ∈ name, c ≠ '=' ∧ c ≠ '(' ∧ isBlank c = false
  undashed : name.head? ≠ some '-'

/-- Blanks at the places before the equals sign. -/
structure Gaps where
  beforeDash : List Char
  beforeName : List Char
  afterName : List Char
  atEnd : List Char
  blank : ∀ gap ∈ [beforeDash, beforeName, afterName, atEnd], ∀ c ∈ gap, isBlank c = true

namespace Gaps

def none : Gaps := ⟨[], [], [], [], by simp⟩

theorem not_mem (g : Gaps) {c : Char} (visible : isBlank c = false) :
    c ∉ g.beforeDash ∧ c ∉ g.beforeName ∧ c ∉ g.afterName ∧ c ∉ g.atEnd := by
  have outside : ∀ gap ∈ [g.beforeDash, g.beforeName, g.afterName, g.atEnd], c ∉ gap := by
    intro gap listed there
    rw [g.blank gap listed c there] at visible
    cases visible
  simpa using outside

end Gaps

namespace Parts

variable (a : Parts) (g : Gaps)

def type : ParameterType := (a.suffix.map KeySpec.Suffix.type).getD .string

def suffixText : List Char := (a.suffix.map KeySpec.Suffix.text).getD []

/-- What stands before the equals sign. -/
def front : List Char :=
  g.beforeDash ++ (if a.dashed then ['-'] else []) ++ g.beforeName ++
    (a.name ++ g.afterName ++ a.suffixText) ++ g.atEnd

def text : String := String.ofList (a.front g ++ '=' :: a.raw)

/-- Can the text behind the equals sign be read as a value of the type? -/
def Readable : Prop := ∃ v, ∀ name, a.type.read name (String.ofList a.raw) = .ok v

variable {a g}

theorem not_mem_front : '=' ∉ a.front g := by
  obtain ⟨beforeDash, beforeName, afterName, atEnd⟩ := g.not_mem (c := '=') (by decide)
  have inSuffix : '=' ∉ a.suffixText := by
    unfold suffixText
    cases a.suffix with
    | none => exact List.not_mem_nil
    | some s => exact s.not_mem_text
  have inName : '=' ∉ a.name := fun there => (a.told '=' there).1 rfl
  have inDash : '=' ∉ (if a.dashed then ['-'] else []) := by split <;> decide
  simp only [front, List.mem_append, not_or]
  exact ⟨⟨⟨⟨beforeDash, inDash⟩, beforeName⟩, ⟨inName, afterName⟩, inSuffix⟩, atEnd⟩

theorem cutFirst_text : cutFirst '=' (a.text g).toList = some (a.front g, a.raw) :=
  cutFirst_eq_some.2 ⟨String.toList_ofList, not_mem_front⟩

/-- The name that is told where no dash is hidden. -/
def kept (a : Parts) (g : Gaps) : List Char :=
  if a.suffix.isSome ∧ a.name ≠ [] then a.name ++ g.afterName else a.name

theorem ofText_inner {before : List Char} (blank : ∀ c ∈ before, isBlank c = true) :
    KeySpec.ofText (String.ofList (trimBlanks
        (before ++ (a.name ++ g.afterName ++ a.suffixText) ++ g.atEnd)))
      = ⟨String.ofList (a.kept g), a.suffix.map KeySpec.Suffix.type⟩ := by
  have visible : ∀ c ∈ a.name, isBlank c = false := fun c there => (a.told c there).2.2
  have blankName : ∀ c ∈ g.afterName, isBlank c = true := g.blank _ (by simp)
  have blankEnd : ∀ c ∈ g.atEnd, isBlank c = true := g.blank _ (by simp)
  unfold suffixText kept
  cases a.suffix with
  | none =>
    have unbracketed : '(' ∉ a.name := fun there => (a.told '(' there).2.1 rfl
    have blank' := List.forall_mem_append.2 ⟨blankName, blankEnd⟩
    have bare : before ++ (a.name ++ g.afterName ++ []) ++ g.atEnd
        = before ++ a.name ++ (g.afterName ++ g.atEnd) := by simp
    rw [Option.map_none, Option.getD_none, bare,
      trimBlanks_around (trimBlanks_visible visible) blank blank',
      KeySpec.ofText_unbracketed (by rwa [String.toList_ofList])]
    rfl
  | some s =>
    simp only [Option.map_some, Option.getD_some, Option.isSome_some, true_and]
    cases named : a.name with
    | nil =>
      have blank' := List.forall_mem_append.2 ⟨blank, blankName⟩
      rw [if_neg (by simp), List.nil_append, ← List.append_assoc before,
        trimBlanks_around (trimBlanks_visible s.isBlank_text) blank' blankEnd]
      exact s.ofText_append []
    | cons c rest =>
      have first : isBlank c = false := visible c (named ▸ List.mem_cons_self)
      have trimmed := trimBlanks_between first s.text_ne_nil s.isBlank_text (rest ++ g.afterName)
      rw [if_pos (List.cons_ne_nil c rest), List.cons_append,
        trimBlanks_around trimmed blank blankEnd]
      exact s.ofText_append _

theorem head?_append_ne {c : Char} {s t : List Char} (first : s.head? ≠ some c)
    (second : t.head? ≠ some c) : (s ++ t).head? ≠ some c := by
  cases s with
  | nil => exact second
  | cons => exact first

/-- Where no blank hides the dash, blanks at the other places are lost, save those between a
name and its type. -/
theorem ofAssignment_shown (shown : a.dashed = true → g.beforeDash = []) :
    ofAssignment (a.text g) = ofSpec (a.text g) (!a.dashed) a.raw
      ⟨String.ofList (a.kept g), a.suffix.map KeySpec.Suffix.type⟩ := by
  have cut := cutFirst_text (a := a) (g := g)
  have blankName : ∀ c ∈ g.beforeName, isBlank c = true := g.blank _ (by simp)
  cases dashed : a.dashed with
  | true =>
    have split : a.front g
        = '-' :: (g.beforeName ++ (a.name ++ g.afterName ++ a.suffixText) ++ g.atEnd) := by
      simp [front, dashed, shown dashed]
    rw [split] at cut
    rw [ofAssignment_dashed cut, ofText_inner blankName]
    rfl
  | false =>
    have blank : ∀ c ∈ g.beforeDash ++ g.beforeName, isBlank c = true :=
      List.forall_mem_append.2 ⟨g.blank _ (by simp), blankName⟩
    have split : a.front g = (g.beforeDash ++ g.beforeName) ++
        (a.name ++ g.afterName ++ a.suffixText) ++ g.atEnd := by
      simp [front, dashed]
    have undashed : (a.front g).head? ≠ some '-' := by
      have inGap : ∀ gap : List Char, (∀ c ∈ gap, isBlank c = true) → gap.head? ≠ some '-' := by
        intro gap blank first
        exact absurd (blank '-' (List.mem_of_head? first)) (by decide)
      have inSuffix : a.suffixText.head? ≠ some '-' := by
        unfold suffixText
        cases a.suffix with
        | none => exact nofun
        | some s => exact fun first => absurd (Option.some.inj first) (by decide)
      have inName := head?_append_ne a.undashed (inGap g.afterName (g.blank _ (by simp)))
      rw [split]
      exact head?_append_ne (head?_append_ne (inGap _ blank) (head?_append_ne inName inSuffix))
        (inGap g.atEnd (g.blank _ (by simp)))
    rw [ofAssignment_undashed cut undashed, split, ofText_inner blank]
    rfl

/-- A blank before the dash makes the dash a part of the name. -/
theorem ofAssignment_hidden (dashed : a.dashed = true) (hidden : g.beforeDash ≠ []) :
    ∃ name, name ≠ "" ∧ ofAssignment (a.text g) = ofSpec (a.text g) true a.raw
      ⟨name, a.suffix.map KeySpec.Suffix.type⟩ := by
  have cut := cutFirst_text (a := a) (g := g)
  have blankEnd : ∀ c ∈ g.atEnd, isBlank c = true := g.blank _ (by simp)
  have blankDash : ∀ c ∈ g.beforeDash, isBlank c = true := g.blank _ (by simp)
  have split : a.front g = g.beforeDash ++
      '-' :: (g.beforeName ++ a.name ++ g.afterName ++ a.suffixText ++ g.atEnd) := by
    simp [front, dashed]
  have undashed : (a.front g).head? ≠ some '-' := by
    obtain ⟨b, rest, first⟩ := List.exists_cons_of_ne_nil hidden
    rw [split, first]
    intro same
    have blank : isBlank b = true := blankDash b (first ▸ List.mem_cons_self)
    rw [Option.some.inj same] at blank
    exact absurd blank (by decide)
  have nonempty : ∀ rest, String.ofList ('-' :: rest) ≠ "" := by
    intro rest nothing
    have chars := congrArg String.toList nothing
    rw [String.toList_ofList] at chars
    cases chars
  rw [ofAssignment_undashed cut undashed, split,
    trimBlanks_blank_cons blankDash (by decide), trimRight_append_blank blankEnd]
  unfold suffixText
  cases a.suffix with
  | none =>
    obtain ⟨-, beforeName, afterName, -⟩ := g.not_mem (c := '(') (by decide)
    have inName : '(' ∉ a.name := fun there => (a.told '(' there).2.1 rfl
    have unbracketed : '(' ∉ '-' :: trimRight (g.beforeName ++ a.name ++ g.afterName) := by
      intro there
      rcases List.mem_cons.1 there with same | inside
      · exact absurd same (by decide)
      · have kept := (List.rdropWhile_prefix isBlank _).subset inside
        rcases List.mem_append.1 kept with front | gap
        · exact (List.mem_append.1 front).elim beforeName inName
        · exact afterName gap
    refine ⟨String.ofList ('-' :: trimRight (g.beforeName ++ a.name ++ g.afterName)),
      nonempty _, ?_⟩
    rw [Option.map_none, Option.map_none, Option.getD_none, List.append_nil,
      KeySpec.ofText_unbracketed (by rwa [String.toList_ofList])]
  | some s =>
    refine ⟨String.ofList ('-' :: (g.beforeName ++ a.name ++ g.afterName)), nonempty _, ?_⟩
    rw [Option.map_some, Option.map_some, Option.getD_some,
      trimRight_append s.text_ne_nil s.isBlank_text, ← List.cons_append, s.ofText_append]

theorem toOption_ofSpec_unreadable (unreadable : ¬ a.Readable) (given name : String)
    (identifying : Bool) :
    (ofSpec given identifying a.raw ⟨name, a.suffix.map KeySpec.Suffix.type⟩).toOption = none := by
  have refused := (a.type.read_cases (String.ofList a.raw)).resolve_left unreadable name
  rw [type] at refused
  unfold ofSpec
  split
  · rfl
  · simp only [refused, Except.map, Except.toOption]

theorem toOption_ofSpec_readable {v : ParameterValue} {name : String}
    (readable : ∀ name, a.type.read name (String.ofList a.raw) = .ok v) (some : name ≠ "")
    (given : String) (identifying : Bool) :
    (ofSpec given identifying a.raw ⟨name, a.suffix.map KeySpec.Suffix.type⟩).toOption
      = .some (name, ⟨v, identifying⟩) := by
  have read := readable name
  rw [type] at read
  simp only [ofSpec, if_neg some, read, Except.map, Except.toOption]

theorem kept_none : a.kept .none = a.name := by
  simp [kept, Gaps.none]

theorem kept_eq_name_iff :
    a.kept g = a.name ↔ (a.suffix.isSome → a.name = [] ∨ g.afterName = []) := by
  unfold kept
  split
  · rename_i both
    simp [both]
  · rename_i notBoth
    tauto

theorem toOption_unreadable (unreadable : ¬ a.Readable) (g : Gaps) :
    (ofAssignment (a.text g)).toOption = none := by
  by_cases shown : a.dashed = true → g.beforeDash = []
  · rw [ofAssignment_shown shown]
    exact toOption_ofSpec_unreadable unreadable _ _ _
  · obtain ⟨dashed, hidden⟩ := Classical.not_imp.1 shown
    obtain ⟨name, -, told⟩ := ofAssignment_hidden dashed hidden
    rw [told]
    exact toOption_ofSpec_unreadable unreadable _ _ _

theorem same_of_shown (readable : a.Readable) (shown : a.dashed = true → g.beforeDash = []) :
    (ofAssignment (a.text g)).toOption = (ofAssignment (a.text .none)).toOption ↔
      a.kept g = a.name := by
  obtain ⟨v, read⟩ := readable
  rw [ofAssignment_shown shown, ofAssignment_shown (g := .none) fun _ => rfl, kept_none]
  by_cases named : a.name = []
  · have kept : a.kept g = a.name := kept_eq_name_iff.2 fun _ => .inl named
    rw [kept, named]
    exact iff_of_true rfl rfl
  · have some : ∀ s : List Char, s ≠ [] → String.ofList s ≠ "" := by
      intro s nonempty nothing
      exact nonempty (String.ofList_eq_empty_iff.1 nothing)
    have nonempty : a.kept g ≠ [] := by
      unfold kept
      split
      · exact List.append_ne_nil_of_left_ne_nil named _
      · exact named
    rw [toOption_ofSpec_readable read (some _ nonempty),
      toOption_ofSpec_readable read (some _ named)]
    constructor
    · intro same
      exact String.ofList_injective (congrArg Prod.fst (Option.some.inj same))
    · intro same
      rw [same]

theorem other_of_hidden (readable : a.Readable) (dashed : a.dashed = true)
    (hidden : g.beforeDash ≠ []) :
    (ofAssignment (a.text g)).toOption ≠ (ofAssignment (a.text .none)).toOption := by
  obtain ⟨v, read⟩ := readable
  obtain ⟨name, some, told⟩ := ofAssignment_hidden dashed hidden
  rw [told, toOption_ofSpec_readable read some, ofAssignment_shown (g := .none) fun _ => rfl]
  by_cases named : String.ofList (a.kept .none) = ""
  · rw [ofSpec, if_pos named]
    exact Option.some_ne_none _
  · rw [toOption_ofSpec_readable read named, dashed]
    intro same
    cases congrArg (fun e => e.2.identifying) (Option.some.inj same)

/-- The same parameter is read, or none is. -/
theorem same_iff :
    (ofAssignment (a.text g)).toOption = (ofAssignment (a.text .none)).toOption ↔
      ¬ a.Readable ∨ ((a.dashed = true → g.beforeDash = []) ∧
        (a.suffix.isSome → a.name = [] ∨ g.afterName = [])) := by
  rw [← kept_eq_name_iff]
  by_cases readable : a.Readable
  · rw [or_iff_right (not_not_intro readable)]
    by_cases shown : a.dashed = true → g.beforeDash = []
    · rw [same_of_shown readable shown, and_iff_right shown]
    · obtain ⟨dashed, hidden⟩ := Classical.not_imp.1 shown
      exact iff_of_false (other_of_hidden readable dashed hidden) fun both => shown both.1
  · rw [toOption_unreadable readable g, toOption_unreadable readable .none]
    exact iff_of_true rfl (.inl readable)

end Parts

/-- Which blanks in an assignment matter. An accepted name begins with no blank, and it ends
with one exactly if there is one before the type. Blanks at the four places before the equals
sign change the parameter exactly if the text behind it can be read and there is one before the
dash, or one between a name and its type. -/
theorem blanks_that_matter (given : String) (a : Parts) (g : Gaps) :
    (∀ name p, ofAssignment given = .ok (name, p) →
      ∃ front raw, cutFirst '=' given.toList = some (front, raw) ∧
        (∀ c, name.toList.head? = some c → isBlank c = false) ∧
        (Text.trim name = name ↔ ¬ BlankBeforeType front)) ∧
      ((ofAssignment (a.text g)).toOption = (ofAssignment (a.text .none)).toOption ↔
        ¬ a.Readable ∨ ((a.dashed = true → g.beforeDash = []) ∧
          (a.suffix.isSome → a.name = [] ∨ g.afterName = []))) :=
  ⟨fun _ _ => trim_name, Parts.same_iff⟩

/-- The blank before a type in brackets is told from the name that is kept. -/
theorem spaced_count_kept :
    ofAssignment "count (long)=5" = .ok ("count ", ⟨.long 5, true⟩) ∧
      BlankBeforeType "count (long)".toList := by
  have accepted : ofAssignment "count (long)=5" = .ok ("count ", ⟨.long 5, true⟩) := by decide
  obtain ⟨front, raw, cut, -, same⟩ :=
    (blanks_that_matter _ ⟨false, [], none, [], by simp, by simp⟩ .none).1 _ _ accepted
  have told : cutFirst '=' "count (long)=5".toList = some ("count (long)".toList, ['5']) := by
    decide
  cases told.symm.trans cut
  exact ⟨accepted, not_not.1 (mt same.2 (by decide))⟩

/-- A blank before the dash makes a parameter of another name, which identifies the instance,
and one before the type makes one of another name too. -/
theorem blank_makes_another :
    (ofAssignment "-note=x" = .ok ("note", ⟨.string "x", false⟩) ∧
      ofAssignment " -note=x" = .ok ("-note", ⟨.string "x", true⟩)) ∧
    (ofAssignment "count(long)=5" = .ok ("count", ⟨.long 5, true⟩) ∧
      ofAssignment "count (long)=5" = .ok ("count ", ⟨.long 5, true⟩)) ∧
    (¬ ∀ given name p, ofAssignment given = .ok (name, p) → Text.trim name = name) ∧
    ¬ ∀ (a : Parts) (g : Gaps),
      (ofAssignment (a.text g)).toOption = (ofAssignment (a.text .none)).toOption := by
  have count : ofAssignment "count (long)=5" = .ok ("count ", ⟨.long 5, true⟩) := by decide
  refine ⟨⟨by decide, by decide⟩, ⟨by decide, count⟩, fun always => ?_, fun always => ?_⟩
  · exact absurd (always _ _ _ count) (by decide)
  · have told : ∀ c ∈ "note".toList, c ≠ '=' ∧ c ≠ '(' ∧ isBlank c = false := fun c there =>
      ⟨ne_of_mem_of_not_mem there (by decide), ne_of_mem_of_not_mem there (by decide),
        visible_of_all rfl c there⟩
    have blank : isBlank ' ' = true := rfl
    have same : (ofAssignment " -note=x").toOption = (ofAssignment "-note=x").toOption :=
      always ⟨true, "note".toList, none, ['x'], told, by decide⟩
        ⟨[' '], [], [], [], by simp [blank]⟩
    exact absurd same (by decide)

end Parameter

end NestedBatch
