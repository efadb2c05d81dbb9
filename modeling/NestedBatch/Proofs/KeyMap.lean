import NestedBatch.KeyMap

/-! What looking keys up tells of a map. Its keys are in order and each is there once, so
that the answers to all look-ups tell the whole map. -/
namespace NestedBatch

theorem getLast?_filter_cons {α : Type} (test : α → Bool) (a : α) (l : List α) :
    ((a :: l).filter test).getLast?
      = (l.filter test).getLast?.or (if test a then some a else none) := by
  cases here : test a
  · rw [List.filter_cons_of_neg (by simp [here]), if_neg Bool.false_ne_true, Option.or_none]
  · rw [List.filter_cons_of_pos here, List.getLast?_cons, if_pos rfl]
    cases (l.filter test).getLast? <;> rfl

theorem getLast?_filter_of_mem {α : Type} (test : α → Bool) {a : α} {l : List α} (there : a ∈ l)
    (passes : test a = true) :
    ∃ last, (l.filter test).getLast? = some last ∧ last ∈ l ∧ test last = true := by
  have listed : a ∈ l.filter test := List.mem_filter.2 ⟨there, passes⟩
  obtain ⟨last, found⟩ := Option.isSome_iff_exists.1
    (List.getLast?_isSome.2 (List.ne_nil_of_mem listed))
  exact ⟨last, found, List.mem_filter.1 (List.mem_of_getLast? found)⟩

section Lists

variable {κ α β : Type} [DecidableEq κ]

theorem lookupKey_eq_none {key : κ} {entries : List (κ × α)}
    (absent : ∀ e ∈ entries, e.1 ≠ key) : lookupKey key entries = none := by
  induction entries with
  | nil => rfl
  | cons e rest ih =>
    obtain ⟨here, there⟩ := List.forall_mem_cons.1 absent
    rw [lookupKey, if_neg here, ih there]

theorem mem_of_lookupKey {key : κ} {value : α} {entries : List (κ × α)}
    (found : lookupKey key entries = some value) : (key, value) ∈ entries := by
  induction entries with
  | nil => cases found
  | cons e rest ih =>
    rw [lookupKey] at found
    split at found
    · rename_i here
      cases found
      rw [← here]
      exact List.mem_cons_self
    · exact List.mem_cons_of_mem e (ih found)

theorem lookupKey_map (f : α → β) (key : κ) (entries : List (κ × α)) :
    lookupKey key (entries.map fun e => (e.1, f e.2)) = (lookupKey key entries).map f := by
  induction entries with
  | nil => rfl
  | cons e rest ih =>
    simp only [List.map_cons, lookupKey]
    split
    · rfl
    · exact ih

variable [LT κ] [LE κ] [Std.LawfulOrderLT κ]

/-- A key below all others of a list is not among them. -/
theorem lookupKey_below {key : κ} {entries : List (κ × α)} (below : ∀ e ∈ entries, key < e.1) :
    lookupKey key entries = none := by
  apply lookupKey_eq_none
  intro e he same
  have less := below e he
  rw [same] at less
  exact Std.lt_irrefl less

theorem lookupKey_of_mem {e : κ × α} {entries : List (κ × α)}
    (sorted : entries.Pairwise fun a b => a.1 < b.1) (there : e ∈ entries) :
    lookupKey e.1 entries = some e.2 := by
  induction entries with
  | nil => cases there
  | cons head rest ih =>
    obtain ⟨first, tail⟩ := List.pairwise_cons.1 sorted
    rcases List.mem_cons.1 there with rfl | later
    · rw [lookupKey, if_pos rfl]
    · have other : head.1 ≠ e.1 := by
        intro same
        have below := first e later
        rw [same] at below
        exact Std.lt_irrefl below
      rw [lookupKey, if_neg other, ih tail later]

theorem lookupKey_filter (keep : κ × α → Bool) (key : κ) {entries : List (κ × α)}
    (sorted : entries.Pairwise fun a b => a.1 < b.1) :
    lookupKey key (entries.filter keep)
      = (lookupKey key entries).filter fun value => keep (key, value) := by
  induction entries with
  | nil => rfl
  | cons e rest ih =>
    obtain ⟨k, value⟩ := e
    obtain ⟨first, tail⟩ := List.pairwise_cons.1 sorted
    by_cases same : k = key
    · subst same
      have others : lookupKey k (rest.filter keep) = none :=
        lookupKey_below fun e he => first e (List.mem_filter.1 he).1
      cases kept : keep (k, value) <;> simp [lookupKey, kept, others, Option.filter]
    · cases kept : keep (k, value) <;> simp [lookupKey, kept, same, ih tail]

variable [Std.IsLinearOrder κ]

theorem eq_of_lookupKey {l m : List (κ × α)} (sorted : l.Pairwise fun a b => a.1 < b.1)
    (sorted' : m.Pairwise fun a b => a.1 < b.1)
    (same : ∀ key, lookupKey key l = lookupKey key m) : l = m := by
  induction l generalizing m with
  | nil =>
    cases m with
    | nil => rfl
    | cons f m => simpa [lookupKey] using same f.1
  | cons e l ih =>
    cases m with
    | nil => simpa [lookupKey] using same e.1
    | cons f m =>
      obtain ⟨k, v⟩ := e
      obtain ⟨k', v'⟩ := f
      obtain ⟨first, tail⟩ := List.pairwise_cons.1 sorted
      obtain ⟨first', tail'⟩ := List.pairwise_cons.1 sorted'
      -- A first key that is below that of the other list is not in that list at all.
      have least : ∀ {a b : κ} {u w : α} {x y : List (κ × α)}, (∀ e ∈ y, b < e.1) → a < b →
          lookupKey a ((a, u) :: x) ≠ lookupKey a ((b, w) :: y) := by
        intro a b u w x y above less
        have absent : lookupKey a ((b, w) :: y) = none :=
          lookupKey_below (List.forall_mem_cons.2
            ⟨less, fun e he => Std.lt_trans less (above e he)⟩)
        rw [absent, lookupKey, if_pos rfl]
        exact Option.some_ne_none u
      have keys : k = k' := key_eq_of_not_lt (fun less => least first' less (same k))
        fun less => least first less (same k').symm
      subst keys
      have values : v = v' := by simpa [lookupKey] using same k
      subst values
      have rest : ∀ key, lookupKey key l = lookupKey key m := by
        intro key
        by_cases here : k = key
        · subst here
          rw [lookupKey_below first, lookupKey_below first']
        · simpa [lookupKey, here] using same key
      rw [ih tail tail' rest]

end Lists

namespace KeyMap

variable {κ α : Type} [DecidableEq κ] [LT κ] [LE κ] [Std.LawfulOrderLT κ]

theorem get?_filter (m : KeyMap κ α) (keep : κ × α → Bool) (key : κ) :
    (m.filter keep).get? key = (m.get? key).filter fun value => keep (key, value) :=
  lookupKey_filter keep key m.sorted

/-- Where the entry of a key passes a test, so does the last to pass it, which is of some key. -/
theorem getLast?_filter_of_get? (test : κ × α → Bool) {m : KeyMap κ α} {key : κ} {value : α}
    (there : m.get? key = some value) (passes : test (key, value) = true) :
    ∃ e, (m.entries.filter test).getLast? = some e ∧ m.get? e.1 = some e.2 ∧ test e = true := by
  obtain ⟨e, last, member, alike⟩ := getLast?_filter_of_mem test (mem_of_lookupKey there) passes
  exact ⟨e, last, lookupKey_of_mem m.sorted member, alike⟩

theorem ext_get? [Std.IsLinearOrder κ] {m n : KeyMap κ α}
    (same : ∀ key, m.get? key = n.get? key) : m = n :=
  ext (eq_of_lookupKey m.sorted n.sorted same)

section Inserted

variable [Std.IsLinearOrder κ] [DecidableLT κ] {pairs : List (κ × α)} {key : κ}

/-- Of pairs that are put in a map one after the other, the last one for a key counts. -/
theorem get?_foldl_insert (pairs : List (κ × α)) (m : KeyMap κ α) (key : κ) :
    (pairs.foldl (fun m p => m.insert p.1 p.2) m).get? key
      = ((pairs.filter fun e => e.1 = key).getLast?.map Prod.snd).or (m.get? key) := by
  induction pairs generalizing m with
  | nil => rfl
  | cons e rest ih =>
    rw [List.foldl_cons, ih, get?_insert, getLast?_filter_cons]
    cases (rest.filter fun e => decide (e.1 = key)).getLast? with
    | some last => rfl
    | none => by_cases here : e.1 = key <;> simp [here]

theorem get?_ofList (pairs : List (κ × α)) (key : κ) :
    (ofList pairs).get? key = (pairs.filter fun e => e.1 = key).getLast?.map Prod.snd := by
  rw [ofList, get?_foldl_insert, get?_empty, Option.or_none]

theorem get?_ofList_append (before after : List (κ × α)) (key : κ) :
    (ofList (before ++ after)).get? key
      = ((ofList after).get? key).or ((ofList before).get? key) := by
  rw [ofList, List.foldl_append, get?_foldl_insert, ← get?_ofList]
  rfl

/-- A map of a list of pairs tells what all pairs for a key agree on. -/
theorem get?_ofList_of_alike {value : α} (there : (key, value) ∈ pairs)
    (alike : ∀ e ∈ pairs, e.1 = key → e.2 = value) : (ofList pairs).get? key = some value := by
  obtain ⟨last, found, member, here⟩ := getLast?_filter_of_mem (fun e => e.1 = key) there
    (decide_eq_true rfl)
  rw [get?_ofList, found, Option.map_some, alike last member (of_decide_eq_true here)]

end Inserted

end KeyMap

end NestedBatch
