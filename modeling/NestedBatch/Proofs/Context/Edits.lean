import Mathlib.Data.List.DropRight
import Mathlib.Data.List.Dedup
import NestedBatch.Context.Json
import NestedBatch.Json.Printer
import NestedBatch.Proofs.Context.Put

/-! A context over any series of edits. It tells the last value that was put under each key,
and its flag tells whether something was changed since the flag was last cleared. -/
namespace NestedBatch

theorem isSome_iff_of_rel {α β : Type} {r : α → β → Prop} {a : Option α} {b : Option β}
    (alike : Option.Rel r a b) : a.isSome = true ↔ b.isSome = true := by
  cases alike <;> simp

theorem KeyMap.mem_keys_iff {κ α : Type} [DecidableEq κ] [LT κ] [LE κ] [Std.LawfulOrderLT κ]
    (m : KeyMap κ α) (key : κ) : key ∈ m.entries.map Prod.fst ↔ (m.get? key).isSome = true := by
  rw [List.mem_map, Option.isSome_iff_exists]
  constructor
  · rintro ⟨e, there, rfl⟩
    exact ⟨e.2, lookupKey_of_mem m.sorted there⟩
  · rintro ⟨value, found⟩
    exact ⟨(key, value), mem_of_lookupKey found, rfl⟩

theorem KeyMap.nodup_keys {κ α : Type} [LT κ] [LE κ] [Std.LawfulOrderLT κ] (m : KeyMap κ α) :
    (m.entries.map Prod.fst).Nodup := by
  refine List.pairwise_map.2 (m.sorted.imp ?_)
  intro a b less same
  rw [same] at less
  exact Std.lt_irrefl less

namespace ContextValue

/-- Is every double a number, also among parameters? -/
def IsNumeric : ContextValue → Prop
  | .double d => d ≠ .nan
  | .parameters p => ∀ e ∈ p.entries, e.2.value ≠ .double .nan
  | _ => True

end ContextValue

theorem Double.agrees_self {d : Double} (number : d ≠ .nan) : d.agrees d = true := by
  cases d with
  | nan => exact absurd rfl number
  | infinite negative => simp [agrees]
  | finite negative size => simp [agrees]

theorem ParameterValue.agrees_self {v : ParameterValue} (number : v ≠ .double .nan) :
    v.agrees v = true := by
  cases v with
  | double d =>
    refine Double.agrees_self ?_
    rintro rfl
    exact number rfl
  | string _ | long _ | date _ => simp [agrees]

theorem Parameters.agree_self {p : Parameters}
    (numeric : ∀ e ∈ p.entries, e.2.value ≠ .double .nan) : p.agree p = true := by
  have pairs : ∀ l : List (String × Parameter), (∀ e ∈ l, e.2.value ≠ .double .nan) →
      (l.zip l).all (fun e => e.1.1 = e.2.1 && e.1.2.agrees e.2.2) = true := by
    intro l numeric
    induction l with
    | nil => rfl
    | cons e rest ih =>
      obtain ⟨first, others⟩ := List.forall_mem_cons.1 numeric
      rw [List.zip_cons_cons, List.all_cons, ih others]
      simp [Parameter.agrees, ParameterValue.agrees_self first]
  rw [agree, pairs p.entries numeric]
  simp

theorem ContextValue.agrees_self {v : ContextValue} (numeric : v.IsNumeric) :
    v.agrees v = true := by
  cases v with
  | double d => exact Double.agrees_self numeric
  | parameters p => exact Parameters.agree_self numeric
  | string _ | long _ | date _ | bool _ => simp [agrees]

namespace Context

inductive Edit where
  | put (key : String) (value : ContextValue)
  | clearDirty
  deriving DecidableEq

namespace Edit

def apply (c : Context) : Edit → Context
  | put key value => c.put key value
  | clearDirty => c.clearDirty

def isPut : Edit → Bool
  | put _ _ => true
  | clearDirty => false

def entry? : Edit → Option (String × ContextValue)
  | put key value => some (key, value)
  | clearDirty => none

end Edit

def edited (c : Context) (edits : List Edit) : Context := edits.foldl Edit.apply c

theorem edited_concat (c : Context) (edits : List Edit) (e : Edit) :
    c.edited (edits ++ [e]) = e.apply (c.edited edits) := by
  rw [edited, List.foldl_append]
  rfl

theorem edited_append (c : Context) (edits edits' : List Edit) :
    c.edited (edits ++ edits') = (c.edited edits).edited edits' := List.foldl_append

def puts (edits : List Edit) : List (String × ContextValue) := edits.filterMap Edit.entry?

def lastPut? (edits : List Edit) (key : String) : Option ContextValue :=
  ((puts edits).filter fun e => e.1 = key).getLast?.map Prod.snd

theorem puts_put (edits : List Edit) (key : String) (value : ContextValue) :
    puts (edits ++ [.put key value]) = puts edits ++ [(key, value)] := by
  simp [puts, Edit.entry?]

theorem puts_clearDirty (edits : List Edit) : puts (edits ++ [.clearDirty]) = puts edits := by
  simp [puts, Edit.entry?]

theorem lastPut?_put (edits : List Edit) (key other : String) (value : ContextValue) :
    lastPut? (edits ++ [.put key value]) other
      = if key = other then some value else lastPut? edits other := by
  rw [lastPut?, puts_put, List.filter_append]
  by_cases same : key = other
  · simp [same]
  · simp [same, lastPut?]

theorem isSome_lastPut? (edits : List Edit) (key : String) :
    (lastPut? edits key).isSome = true ↔ key ∈ (puts edits).map Prod.fst := by
  rw [lastPut?, Option.isSome_map, List.getLast?_isSome, List.mem_map, ne_eq,
    List.filter_eq_nil_iff]
  simp

/-- What is held under a key agrees with the value that was put last under it. -/
theorem holds_lastPut {edits : List Edit} (numeric : ∀ e ∈ puts edits, e.2.IsNumeric)
    (key : String) :
    Option.Rel (fun held value => held.agrees value = true)
      ((empty.edited edits).get? key) (lastPut? edits key) := by
  induction edits using List.reverseRecOn with
  | nil => exact .none
  | append_singleton edits e ih =>
    rw [edited_concat]
    cases e with
    | clearDirty =>
      rw [puts_clearDirty] at numeric
      rw [lastPut?, puts_clearDirty]
      exact ih numeric
    | put name value =>
      rw [puts_put] at numeric
      obtain ⟨before, own⟩ := List.forall_mem_append.1 numeric
      rw [lastPut?_put, Edit.apply]
      by_cases here : name = key
      · subst here
        rw [if_pos rfl]
        rcases put_cases (empty.edited edits) name value with ⟨kept, held, there, same⟩ | ⟨filed, _⟩
        · -- The old value stays, though it may not be the one put, only agree with it.
          rw [kept, there]
          exact .some same
        · rw [filed, get?, KeyMap.get?_insert, if_pos rfl]
          exact .some (ContextValue.agrees_self (own (name, value) List.mem_cons_self))
      · rw [if_neg here, get?_put_of_ne _ here]
        exact ih before

theorem size_edited {edits : List Edit} (numeric : ∀ e ∈ puts edits, e.2.IsNumeric) :
    (empty.edited edits).size = ((puts edits).map Prod.fst).dedup.length := by
  have keys : ∀ key, key ∈ (empty.edited edits).entries.entries.map Prod.fst ↔
      key ∈ ((puts edits).map Prod.fst).dedup := by
    intro key
    rw [KeyMap.mem_keys_iff, List.mem_dedup, ← isSome_lastPut?]
    exact isSome_iff_of_rel (holds_lastPut numeric key)
  -- Neither list has a key twice, so that they differ in their order at most.
  have same := (List.perm_ext_iff_of_nodup (KeyMap.nodup_keys _) (List.nodup_dedup _)).2 keys
  rw [← same.length_eq, List.length_map]
  rfl

/-- The edits since the flag was last cleared, or all of them. -/
def unsaved (edits : List Edit) : List Edit := edits.rtakeWhile Edit.isPut

def saved (edits : List Edit) : List Edit := edits.rdropWhile Edit.isPut

theorem isPut_of_mem_unsaved {edits : List Edit} : ∀ e ∈ unsaved edits, e.isPut = true :=
  fun _ => List.mem_rtakeWhile_imp

theorem saved_append_unsaved (edits : List Edit) : saved edits ++ unsaved edits = edits :=
  List.rdropWhile_append_rtakeWhile

theorem dirty_saved (edits : List Edit) : (empty.edited (saved edits)).dirty = false := by
  by_cases first : saved edits = []
  · rw [first]
    rfl
  · have last := List.rdropWhile_last_not Edit.isPut edits first
    rw [← List.dropLast_concat_getLast first, edited_concat]
    cases cleared : (saved edits).getLast first with
    | clearDirty => rfl
    | put key value => exact absurd (congrArg Edit.isPut cleared) last

section Puts

variable {edits : List Edit}

theorem edited_of_clean {c : Context} (puts : ∀ e ∈ edits, e.isPut = true)
    (clean : (c.edited edits).dirty = false) : c.edited edits = c := by
  induction edits using List.reverseRecOn with
  | nil => rfl
  | append_singleton edits e ih =>
    obtain ⟨before, own⟩ := List.forall_mem_append.1 puts
    rw [edited_concat] at clean ⊢
    cases e with
    | clearDirty => exact absurd (own _ List.mem_cons_self) Bool.false_ne_true
    | put key value =>
      rcases put_cases (c.edited edits) key value with ⟨kept, _⟩ | ⟨filed, _⟩
      · rw [Edit.apply, kept] at clean ⊢
        exact ih before clean
      · rw [Edit.apply, filed] at clean
        cases clean

/-- The flag was set before, or a value was put that the context lacked. -/
theorem dirty_edited {c : Context} (puts : ∀ e ∈ edits, e.isPut = true) :
    (c.edited edits).dirty = true ↔ c.dirty = true ∨ ∃ before key value,
      before ++ [.put key value] <+: edits ∧ (c.edited before).Lacks key value := by
  induction edits using List.reverseRecOn with
  | nil => simp [edited]
  | append_singleton edits e ih =>
    obtain ⟨before, own⟩ := List.forall_mem_append.1 puts
    rw [edited_concat]
    cases e with
    | clearDirty => exact absurd (own _ List.mem_cons_self) Bool.false_ne_true
    | put key value =>
      rcases put_cases (c.edited edits) key value with ⟨kept, held, there, same⟩ | ⟨filed, lacks⟩
      · rw [Edit.apply, kept, ih before]
        refine or_congr_right ?_
        constructor
        · rintro ⟨before, k, v, begins, lacks⟩
          exact ⟨before, k, v, begins.trans (List.prefix_append edits _), lacks⟩
        · rintro ⟨before, k, v, begins, lacks⟩
          rcases List.prefix_concat_iff.1 begins with whole | earlier
          · -- What was put last was not lacking, so that it is an earlier one that was.
            obtain ⟨rfl, last⟩ := List.append_singleton_inj.1 whole
            cases last
            exact absurd ((lacks held there).symm.trans same) Bool.false_ne_true
          · exact ⟨before, k, v, earlier, lacks⟩
      · rw [Edit.apply, filed]
        exact iff_of_true rfl (.inr ⟨edits, key, value, List.prefix_rfl, lacks⟩)

end Puts

/-- Over any series of edits, a context that began empty holds under each key a value that
agrees with the one put last under it, and nothing under any other key. Its flag tells
whether something was put since the flag was last cleared that the context lacked just then;
while the flag is not set, entries and text are those of the context when it was cleared. -/
theorem edits_told {edits : List Edit} (numeric : ∀ e ∈ puts edits, e.2.IsNumeric) :
    (∀ key, Option.Rel (fun held value => held.agrees value = true)
        ((empty.edited edits).get? key) (lastPut? edits key)) ∧
      (empty.edited edits).size = ((puts edits).map Prod.fst).dedup.length ∧
      ((empty.edited edits).dirty = true ↔ ∃ before key value,
        before ++ [.put key value] <+: unsaved edits ∧
          (empty.edited (saved edits ++ before)).Lacks key value) ∧
      ((empty.edited edits).dirty = false →
        (empty.edited edits).entries = (empty.edited (saved edits)).entries ∧
          (empty.edited edits).toJson.compactText
            = (empty.edited (saved edits)).toJson.compactText) := by
  have parts : empty.edited edits = (empty.edited (saved edits)).edited (unsaved edits) := by
    rw [← edited_append, saved_append_unsaved]
  refine ⟨holds_lastPut numeric, size_edited numeric, ?_, ?_⟩
  · rw [parts, dirty_edited isPut_of_mem_unsaved, dirty_saved]
    simp only [Bool.false_eq_true, false_or, edited_append]
  · intro clean
    rw [parts] at clean ⊢
    rw [edited_of_clean isPut_of_mem_unsaved clean]
    exact ⟨rfl, rfl⟩

/-- A zero that was saved, and one with the other sign put over it. -/
def zeros : List Edit :=
  [.put "rate" (.double (.finite false .zero)), .clearDirty,
    .put "rate" (.double (.finite true .zero))]

/-- The zero that was saved stays, and there is nothing to be saved. -/
theorem saved_zero_stays :
    (∀ e ∈ puts zeros, e.2.IsNumeric) ∧
      Option.Rel (fun held value => held.agrees value = true)
        ((empty.edited zeros).get? "rate") (some (.double (.finite true .zero))) ∧
      (empty.edited zeros).size = 1 ∧ (empty.edited zeros).dirty = false ∧
      (empty.edited zeros).entries
        = (empty.put "rate" (.double (.finite false .zero))).entries := by
  have numeric : ∀ e ∈ puts zeros, e.2.IsNumeric := by
    intro e there
    simp only [puts, zeros, List.filterMap_cons, Edit.entry?, List.filterMap_nil,
      List.mem_cons, List.not_mem_nil, or_false] at there
    rcases there with rfl | rfl <;> exact nofun
  obtain ⟨held, size, _, clean⟩ := edits_told numeric
  have unset : (empty.edited zeros).dirty = false := by decide
  exact ⟨numeric, held "rate", size, unset, (clean unset).1⟩

end Context

end NestedBatch
