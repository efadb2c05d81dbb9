import NestedBatch.Proofs.Json.Scan

/-! Written JSON values are read back, on one line or indented. -/
namespace NestedBatch.Json

/-- Does a layout put nothing but space between the parts? -/
structure Layout.Spaced (l : Layout) : Prop where
  line : ∀ depth, ∀ c ∈ l.line depth, isSpace c = true
  colon : ∃ blank, l.colon = ':' :: blank ∧ ∀ c ∈ blank, isSpace c = true

theorem spaced_compact : compact.Spaced :=
  ⟨fun _ _ h => (List.not_mem_nil h).elim, [], rfl, fun _ h => (List.not_mem_nil h).elim⟩

theorem spaced_pretty : pretty.Spaced := by
  refine ⟨fun depth c h => ?_, [' '], rfl, List.forall_mem_singleton.2 (by decide)⟩
  rcases List.mem_cons.1 h with rfl | h
  · decide
  · rw [List.eq_of_mem_replicate h]
    decide

mutual

/-- Can the value be written so that it is held when it is read, with `n` arrays
and objects around its parts at most? -/
def Sound (n : Nat) : Json → Prop
  | .number w => WellFormed w
  | .broken => False
  | .array items => 0 < n ∧ SoundItems (n - 1) items
  | .object fields => 0 < n ∧ SoundFields (n - 1) fields
  | _ => True

def SoundItems (n : Nat) : List Json → Prop
  | [] => True
  | v :: rest => Sound n v ∧ SoundItems n rest

def SoundFields (n : Nat) : List (String × Json) → Prop
  | [] => True
  | (_, v) :: rest => Sound n v ∧ SoundFields n rest

end

section Space

variable {blank s rest : List Char}

theorem skipSpace_append (spaces : ∀ c ∈ blank, isSpace c = true) :
    skipSpace (blank ++ s) = skipSpace s :=
  List.dropWhile_append_of_pos spaces

theorem skipSpace_cons {c : Char} (visible : isSpace c = false) :
    skipSpace (c :: s) = c :: s :=
  List.dropWhile_cons_of_neg (by rw [visible]; exact Bool.false_ne_true)

theorem value?_append (spaces : ∀ c ∈ blank, isSpace c = true) (fuel depth : Nat) :
    value? fuel depth (blank ++ s) = value? fuel depth s := by
  cases fuel with
  | zero => rfl
  | succ fuel => simp only [value?, skipSpace_append spaces]

theorem items?_append (spaces : ∀ c ∈ blank, isSpace c = true) (fuel depth : Nat) :
    items? fuel depth (blank ++ s) = items? fuel depth s := by
  cases fuel with
  | zero => rfl
  | succ fuel => simp only [items?, value?_append spaces]

theorem fields?_append (spaces : ∀ c ∈ blank, isSpace c = true) (fuel depth : Nat) :
    fields? fuel depth (blank ++ s) = fields? fuel depth s := by
  cases fuel with
  | zero => rfl
  | succ fuel => simp only [fields?, skipSpace_append spaces]

theorem ends_of_space {c : Char} (space : isSpace c = true) : Ends (c :: s) := by
  simp only [isSpace, Bool.or_eq_true, decide_eq_true_eq] at space
  rcases space with ((rfl | rfl) | rfl) | rfl <;> exact ⟨by decide, by decide, by decide, by decide⟩

theorem ends_append (spaces : ∀ c ∈ blank, isSpace c = true) (ends : Ends s) :
    Ends (blank ++ s) := by
  cases blank with
  | nil => exact ends
  | cons c blank => exact ends_of_space (spaces c List.mem_cons_self)

end Space

variable {l : Layout} {v : Json} {rest : List Char} {n fuel depth : Nat}

/-- How a written value begins: not with space, and not like the end of an array or object. -/
structure Begins (c : Char) : Prop where
  visible : isSpace c = false
  bracket : c ≠ ']'
  brace : c ≠ '\x7d'

theorem begins_digit {c : Char} (number : c = '-' ∨ c.isDigit = true) : Begins c := by
  rcases number with rfl | digit
  · exact ⟨by decide, by decide, by decide⟩
  · refine ⟨?_, ?_, ?_⟩
    · cases space : isSpace c with
      | false => rfl
      | true =>
        simp only [isSpace, Bool.or_eq_true, decide_eq_true_eq] at space
        rcases space with ((rfl | rfl) | rfl) | rfl <;> exact absurd digit (by decide)
    · rintro rfl
      exact absurd digit (by decide)
    · rintro rfl
      exact absurd digit (by decide)

theorem render_head (indent : Nat) (sound : Sound n v) :
    ∃ c s, render l indent v = c :: s ∧ Begins c := by
  cases v with
  | null => exact ⟨_, _, by rw [render], by decide, by decide, by decide⟩
  | bool b => cases b <;> exact ⟨_, _, by rw [render], by decide, by decide, by decide⟩
  | number w =>
    obtain ⟨c, s, first, number⟩ := chars_head (w := w) sound
    exact ⟨c, s, by rw [render, first], begins_digit number⟩
  | string s => exact ⟨_, _, by rw [render, quoted], by decide, by decide, by decide⟩
  | broken => exact sound.elim
  | array items => cases items <;> exact ⟨_, _, by rw [render], by decide, by decide, by decide⟩
  | object fields =>
    cases fields with
    | nil => exact ⟨_, _, by rw [render], by decide, by decide, by decide⟩
    | cons f fields => exact ⟨_, _, by rw [render], by decide, by decide, by decide⟩

theorem value?_number {w : Written} (formed : WellFormed w) (ends : Ends rest) :
    value? (fuel + 1) depth (w.chars ++ rest) = some (.number w, rest) := by
  obtain ⟨c, s, first, number⟩ := chars_head formed
  have read := number?_chars formed ends
  rw [first, List.cons_append] at read ⊢
  have visible := (begins_digit number).visible
  have letters : ∀ x ∈ ['n', 't', 'f', '"', '[', '\x7b'], ¬ (x = '-' ∨ x.isDigit = true) := by
    simp only [List.forall_mem_cons, List.not_mem_nil, false_imp_iff, implies_true, and_true]
    decide
  have other : ∀ x ∈ ['n', 't', 'f', '"', '[', '\x7b'], c ≠ x :=
    fun x listed same => letters x listed (same ▸ number)
  simp only [List.mem_cons, List.not_mem_nil, or_false, forall_eq_or_imp, forall_eq] at other
  obtain ⟨n, t, f, quote, bracket, brace⟩ := other
  rw [value?.eq_def]
  simp [skipSpace_cons visible, n, t, f, quote, bracket, brace, read]

/-- The items of an array after its opening bracket and the space there, and its end. -/
def renderInner (l : Layout) (indent : Nat) : List Json → List Char
  | [] => []
  | v :: rest => render l (indent + 1) v ++ renderItems l indent rest

/-- The fields of an object after its opening brace and the space there, and its end. -/
def renderNamed (l : Layout) (indent : Nat) : List (String × Json) → List Char
  | [] => []
  | (name, v) :: rest =>
    quoted name ++ l.colon ++ render l (indent + 1) v ++ renderFields l indent rest

theorem render_array (indent : Nat) (v : Json) (items : List Json) :
    render l indent (.array (v :: items))
      = '[' :: (l.line (indent + 1) ++ renderInner l indent (v :: items)) := by
  simp only [render, renderInner, List.append_assoc]

theorem render_object (indent : Nat) (f : String × Json) (fields : List (String × Json)) :
    render l indent (.object (f :: fields))
      = '\x7b' :: (l.line (indent + 1) ++ renderNamed l indent (f :: fields)) := by
  obtain ⟨name, v⟩ := f
  simp only [render, renderNamed, List.append_assoc]

theorem renderItems_cons (indent : Nat) (v : Json) (items : List Json) :
    renderItems l indent (v :: items)
      = ',' :: (l.line (indent + 1) ++ renderInner l indent (v :: items)) := by
  simp only [renderItems, renderInner, List.append_assoc]

theorem renderFields_cons (indent : Nat) (f : String × Json) (fields : List (String × Json)) :
    renderFields l indent (f :: fields)
      = ',' :: (l.line (indent + 1) ++ renderNamed l indent (f :: fields)) := by
  obtain ⟨name, v⟩ := f
  simp only [renderFields, renderNamed, List.append_assoc]

theorem ends_comma : Ends (',' :: rest) := ⟨by decide, by decide, by decide, by decide⟩

theorem ends_bracket : Ends (']' :: rest) := ⟨by decide, by decide, by decide, by decide⟩

theorem ends_brace : Ends ('\x7d' :: rest) := ⟨by decide, by decide, by decide, by decide⟩

theorem ofFields_some (fields : List (String × Json)) :
    ofFields (fields.map fun f => (some f.1, f.2)) = .object fields := by
  have named : (fields.map fun f => (some f.1, f.2)).mapM
      (fun f : Option String × Json => f.1.map (·, f.2)) = some fields := by
    induction fields with
    | nil => rfl
    | cons f fields ih => simp [ih]
  simp only [ofFields, named]

section Steps

variable {blank s more : List Char} {items : List Json} {fields : List (Option String × Json)}

theorem value?_array (spaces : ∀ c ∈ blank, isSpace c = true)
    (begins : ∃ c t, s = c :: t ∧ Begins c) (shallow : depth < deepest)
    (read : items? fuel (depth + 1) s = some (items, rest)) :
    value? (fuel + 1) depth ('[' :: (blank ++ s)) = some (.array items, rest) := by
  obtain ⟨c, t, rfl, begin⟩ := begins
  have bracket : skipSpace ('[' :: (blank ++ c :: t)) = '[' :: (blank ++ c :: t) :=
    skipSpace_cons (by decide)
  rw [value?.eq_def]
  simp [bracket, skipSpace_append spaces, skipSpace_cons begin.visible, begin.bracket, read,
    shallow]

theorem value?_object (spaces : ∀ c ∈ blank, isSpace c = true)
    (begins : ∃ t, s = '"' :: t) (shallow : depth < deepest)
    (read : fields? fuel (depth + 1) s = some (fields, rest)) :
    value? (fuel + 1) depth ('\x7b' :: (blank ++ s)) = some (ofFields fields, rest) := by
  obtain ⟨t, rfl⟩ := begins
  have brace : skipSpace ('\x7b' :: (blank ++ '"' :: t)) = '\x7b' :: (blank ++ '"' :: t) :=
    skipSpace_cons (by decide)
  have quote : skipSpace ('"' :: t) = '"' :: t := skipSpace_cons (by decide)
  rw [value?.eq_def]
  simp [brace, skipSpace_append spaces, quote, read, shallow]

theorem items?_last (spaces : ∀ c ∈ blank, isSpace c = true)
    (read : value? fuel depth s = some (v, blank ++ ']' :: rest)) :
    items? (fuel + 1) depth s = some ([v], rest) := by
  have bracket : skipSpace (']' :: rest) = ']' :: rest := skipSpace_cons (by decide)
  rw [items?.eq_def]
  simp [read, skipSpace_append spaces, bracket]

theorem items?_more (first : value? fuel depth s = some (v, ',' :: more))
    (read : items? fuel depth more = some (items, rest)) :
    items? (fuel + 1) depth s = some (v :: items, rest) := by
  have comma : skipSpace (',' :: more) = ',' :: more := skipSpace_cons (by decide)
  rw [items?.eq_def]
  simp [first, comma, read]

theorem skipSpace_quoted (name : String) :
    skipSpace (quoted name ++ s) = '"' :: (name.toList.flatMap escape ++ '"' :: s) := by
  simp only [quoted, List.cons_append, List.append_assoc, List.nil_append]
  exact skipSpace_cons (by decide)

theorem skipSpace_colon (s : List Char) : skipSpace (':' :: s) = ':' :: s :=
  skipSpace_cons (by decide)

theorem fields?_last (name : String) (gap : ∀ c ∈ more, isSpace c = true)
    (spaces : ∀ c ∈ blank, isSpace c = true)
    (read : value? fuel depth s = some (v, blank ++ '\x7d' :: rest)) :
    fields? (fuel + 1) depth (quoted name ++ ':' :: (more ++ s))
      = some ([(some name, v)], rest) := by
  have brace : skipSpace ('\x7d' :: rest) = '\x7d' :: rest := skipSpace_cons (by decide)
  rw [fields?.eq_def]
  simp [skipSpace_quoted, string?_quoted, skipSpace_colon, value?_append gap, read,
    skipSpace_append spaces, brace]

theorem fields?_more (name : String) {gap : List Char} (spaces : ∀ c ∈ gap, isSpace c = true)
    (first : value? fuel depth s = some (v, ',' :: more))
    (read : fields? fuel depth more = some (fields, rest)) :
    fields? (fuel + 1) depth (quoted name ++ ':' :: (gap ++ s))
      = some ((some name, v) :: fields, rest) := by
  have comma : skipSpace (',' :: more) = ',' :: more := skipSpace_cons (by decide)
  rw [fields?.eq_def]
  simp [skipSpace_quoted, string?_quoted, skipSpace_colon, value?_append spaces, first, comma, read]

end Steps

theorem render_length_pos (indent : Nat) (sound : Sound n v) : 0 < (render l indent v).length := by
  obtain ⟨c, s, first, _⟩ := render_head (l := l) indent sound
  rw [first]
  exact Nat.succ_pos _

theorem renderInner_head (indent : Nat) {items : List Json} (sound : SoundItems n items)
    (nonempty : items ≠ []) :
    ∃ c s, renderInner l indent items ++ rest = c :: s ∧ Begins c := by
  cases items with
  | nil => exact absurd rfl nonempty
  | cons v items =>
    obtain ⟨c, s, first, begins⟩ := render_head (l := l) (indent + 1) sound.1
    exact ⟨c, _, by rw [renderInner, first]; rfl, begins⟩

theorem renderNamed_head (indent : Nat) {fields : List (String × Json)} (nonempty : fields ≠ []) :
    ∃ s, renderNamed l indent fields ++ rest = '"' :: s := by
  cases fields with
  | nil => exact absurd rfl nonempty
  | cons f fields => exact ⟨_, rfl⟩

mutual

/-- A written value is taken from the front of a text, if there is fuel for its length. -/
theorem value?_render (spaced : l.Spaced) : ∀ (v : Json) (n depth fuel indent : Nat)
    (rest : List Char), Sound n v → depth + n ≤ deepest →
      2 * (render l indent v).length ≤ fuel → Ends rest →
        value? fuel depth (render l indent v ++ rest) = some (v, rest)
  | v, n, depth, 0, indent, rest, sound, _, enough, _ => by
    have := render_length_pos (l := l) indent sound
    omega
  | .null, _, _, fuel + 1, _, _, _, _, _, _ => by
    simp [render, value?, skipSpace_cons (show isSpace 'n' = false by decide)]
  | .bool true, _, _, fuel + 1, _, _, _, _, _, _ => by
    simp [render, value?, skipSpace_cons (show isSpace 't' = false by decide)]
  | .bool false, _, _, fuel + 1, _, _, _, _, _, _ => by
    simp [render, value?, skipSpace_cons (show isSpace 'f' = false by decide)]
  | .number w, _, _, fuel + 1, _, _, formed, _, _, ends => by
    rw [render]
    exact value?_number formed ends
  | .string s, _, _, fuel + 1, _, _, _, _, _, _ => by
    simp [render, value?, skipSpace_quoted, string?_quoted]
  | .broken, _, _, _ + 1, _, _, sound, _, _, _ => sound.elim
  | .array [], n, _, fuel + 1, _, _, sound, deep, _, _ => by
    have shallow := sound.1
    have bracket : ∀ s, skipSpace (']' :: s) = ']' :: s := fun s => skipSpace_cons (by decide)
    have begin : ∀ s, skipSpace ('[' :: s) = '[' :: s := fun s => skipSpace_cons (by decide)
    simp only [render, value?, List.cons_append, List.nil_append, begin, bracket]
    rw [if_pos (by omega)]
  | .array (v :: items), n, depth, fuel + 1, indent, rest, sound, deep, enough, _ => by
    -- One bracket less to write leaves two units of fuel, one for each step into the items.
    have shallow := sound.1
    rw [render_array] at enough ⊢
    simp only [List.length_cons, List.length_append] at enough
    have read := items?_render spaced (v :: items) (n - 1) (depth + 1) fuel indent rest sound.2
      (List.cons_ne_nil _ _) (by omega) (by omega)
    rw [List.cons_append, List.append_assoc]
    exact value?_array (spaced.line _) (renderInner_head indent sound.2 (List.cons_ne_nil _ _))
      (by omega) read
  | .object [], n, _, fuel + 1, _, _, sound, deep, _, _ => by
    have shallow := sound.1
    have brace : ∀ s, skipSpace ('\x7d' :: s) = '\x7d' :: s := fun s => skipSpace_cons (by decide)
    have begin : ∀ s, skipSpace ('\x7b' :: s) = '\x7b' :: s := fun s => skipSpace_cons (by decide)
    simp only [render, value?, List.cons_append, List.nil_append, begin, brace]
    rw [if_pos (by omega)]
  | .object (f :: fields), n, depth, fuel + 1, indent, rest, sound, deep, enough, _ => by
    have shallow := sound.1
    rw [render_object] at enough ⊢
    simp only [List.length_cons, List.length_append] at enough
    have read := fields?_render spaced (f :: fields) (n - 1) (depth + 1) fuel indent rest sound.2
      (List.cons_ne_nil _ _) (by omega) (by omega)
    rw [List.cons_append, List.append_assoc, ← ofFields_some]
    exact value?_object (spaced.line _) (renderNamed_head indent (List.cons_ne_nil _ _))
      (by omega) read

theorem items?_render (spaced : l.Spaced) : ∀ (items : List Json)
    (n depth fuel indent : Nat) (rest : List Char), SoundItems n items → items ≠ [] →
      depth + n ≤ deepest → 2 * (renderInner l indent items).length ≤ fuel →
        items? fuel depth (renderInner l indent items ++ rest) = some (items, rest)
  | [], _, _, _, _, _, _, nonempty, _, _ => absurd rfl nonempty
  | v :: items, n, depth, 0, indent, rest, sound, _, deep, enough => by
    have := render_length_pos (l := l) (indent + 1) sound.1
    simp only [renderInner, List.length_append] at enough
    omega
  | [v], n, depth, fuel + 1, indent, rest, sound, _, deep, enough => by
    simp only [renderInner, renderItems, List.length_append] at enough ⊢
    have first := value?_render spaced v n depth fuel (indent + 1)
      (l.line indent ++ ']' :: rest) sound.1 deep
      (by simp only [List.length_cons] at enough; omega)
      (ends_append (spaced.line indent) ends_bracket)
    simp only [List.append_assoc, List.cons_append, List.nil_append]
    exact items?_last (spaced.line indent) first
  | v :: w :: items, n, depth, fuel + 1, indent, rest, sound, _, deep, enough => by
    rw [renderInner, renderItems_cons] at enough ⊢
    simp only [List.length_append, List.length_cons] at enough
    have read := items?_render spaced (w :: items) n depth fuel indent rest sound.2
      (List.cons_ne_nil _ _) deep (by omega)
    have first := value?_render spaced v n depth fuel (indent + 1)
      (',' :: (l.line (indent + 1) ++ (renderInner l indent (w :: items) ++ rest))) sound.1
      deep (by omega) ends_comma
    simp only [List.append_assoc, List.cons_append]
    refine items?_more first ?_
    rw [items?_append (spaced.line _)]
    exact read

theorem fields?_render (spaced : l.Spaced) : ∀ (fields : List (String × Json))
    (n depth fuel indent : Nat) (rest : List Char), SoundFields n fields → fields ≠ [] →
      depth + n ≤ deepest → 2 * (renderNamed l indent fields).length ≤ fuel →
        fields? fuel depth (renderNamed l indent fields ++ rest)
          = some (fields.map fun f => (some f.1, f.2), rest)
  | [], _, _, _, _, _, _, nonempty, _, _ => absurd rfl nonempty
  | (name, v) :: fields, n, depth, 0, indent, rest, sound, _, deep, enough => by
    have := render_length_pos (l := l) (indent + 1) sound.1
    simp only [renderNamed, List.length_append] at enough
    omega
  | [(name, v)], n, depth, fuel + 1, indent, rest, sound, _, deep, enough => by
    obtain ⟨gap, colon, spaces⟩ := spaced.colon
    simp only [renderNamed, renderFields, List.length_append, colon] at enough ⊢
    have first := value?_render spaced v n depth fuel (indent + 1)
      (l.line indent ++ '\x7d' :: rest) sound.1 deep
      (by simp only [List.length_cons] at enough; omega)
      (ends_append (spaced.line indent) ends_brace)
    simp only [List.append_assoc, List.cons_append, List.nil_append]
    exact fields?_last name spaces (spaced.line indent) first
  | (name, v) :: f :: fields, n, depth, fuel + 1, indent, rest, sound, _, deep, enough => by
    obtain ⟨gap, colon, spaces⟩ := spaced.colon
    rw [renderNamed, renderFields_cons, colon] at enough ⊢
    simp only [List.length_append, List.length_cons] at enough
    have read := fields?_render spaced (f :: fields) n depth fuel indent rest sound.2
      (List.cons_ne_nil _ _) deep (by omega)
    have first := value?_render spaced v n depth fuel (indent + 1)
      (',' :: (l.line (indent + 1) ++ (renderNamed l indent (f :: fields) ++ rest))) sound.1
      deep (by omega) ends_comma
    simp only [List.append_assoc, List.cons_append]
    refine fields?_more name spaces first ?_
    rw [fields?_append (spaced.line _)]
    exact read

end

/-- A written value that is not nested too deeply is read back. -/
theorem read_render (spaced : l.Spaced) (sound : Sound deepest v) :
    read (String.ofList (render l 0 v)) = some v := by
  have value := value?_render spaced v deepest 0 (2 * (render l 0 v).length + 2) 0 [] sound
    (by omega) (by omega) trivial
  rw [List.append_nil] at value
  simp [read, value, skipSpace]

theorem read_prettyText (sound : Sound deepest v) : read v.prettyText = some v :=
  read_render spaced_pretty sound

theorem read_compactText (sound : Sound deepest v) : read v.compactText = some v :=
  read_render spaced_compact sound

section Sound

mutual

theorem Sound.mono : ∀ {v : Json} {n m : Nat}, Sound n v → n ≤ m → Sound m v
  | .null, _, _, _, _ | .bool _, _, _, _, _ | .string _, _, _, _, _ => trivial
  | .number _, _, _, formed, _ => formed
  | .broken, _, _, sound, _ => sound
  | .array _, _, _, ⟨shallow, items⟩, le =>
    ⟨Nat.lt_of_lt_of_le shallow le, items.mono (Nat.sub_le_sub_right le 1)⟩
  | .object _, _, _, ⟨shallow, fields⟩, le =>
    ⟨Nat.lt_of_lt_of_le shallow le, fields.mono (Nat.sub_le_sub_right le 1)⟩

theorem SoundItems.mono : ∀ {items : List Json} {n m : Nat}, SoundItems n items → n ≤ m →
    SoundItems m items
  | [], _, _, _, _ => trivial
  | _ :: _, _, _, ⟨first, rest⟩, le => ⟨first.mono le, rest.mono le⟩

theorem SoundFields.mono : ∀ {fields : List (String × Json)} {n m : Nat}, SoundFields n fields →
    n ≤ m → SoundFields m fields
  | [], _, _, _, _ => trivial
  | _ :: _, _, _, ⟨first, rest⟩, le => ⟨first.mono le, rest.mono le⟩

end

theorem soundItems_map {α : Type} {f : α → Json} {n : Nat} : ∀ {items : List α},
    (∀ a ∈ items, Sound n (f a)) → SoundItems n (items.map f)
  | [], _ => trivial
  | a :: _, sound => ⟨sound a List.mem_cons_self,
      soundItems_map fun b hb => sound b (List.mem_cons_of_mem a hb)⟩

theorem soundFields_map {α : Type} {f : α → Json} {n : Nat} : ∀ {fields : List (String × α)},
    (∀ p ∈ fields, Sound n (f p.2)) → SoundFields n (fields.map fun p => (p.1, f p.2))
  | [], _ => trivial
  | p :: _, sound => ⟨sound p List.mem_cons_self,
      soundFields_map fun q hq => sound q (List.mem_cons_of_mem p hq)⟩

end Sound

end NestedBatch.Json
