import NestedBatch.Proofs.KeyMap
import NestedBatch.Step.Extraction

/-! What is extracted from a context, told name by name. The last key for a name decides
what becomes of it, a key without an entry counts for nothing else, and an entry that cannot
be converted ends the extraction also if a later key is for the same name. -/
namespace NestedBatch

theorem Except.mapError_ok_iff {ε ε' α : Type} {x : Except ε α} {f : ε → ε'} {a : α} :
    x.mapError f = .ok a ↔ x = .ok a := by
  cases x with
  | error e => exact ⟨nofun, nofun⟩
  | ok b =>
    rw [show (Except.ok b : Except ε α).mapError f = .ok b from rfl, Except.ok.injEq,
      Except.ok.injEq]

theorem Extraction.derive_eq_ok {x : Extraction} {s : StepExecution} {p : Parameters} :
    x.derive s = .ok p ↔ x.parameters s = .ok p :=
  Except.mapError_ok_iff

/-- The last of some keys that are for a name. -/
def KeySpec.lastFor (keys : List String) (name : String) : Option KeySpec :=
  ((keys.map KeySpec.ofText).filter fun spec => spec.name = name).getLast?

namespace KeySpec

variable {keys keys' : List String} {name : String} {spec : KeySpec}

theorem mem_of_lastFor (last : lastFor keys name = some spec) :
    spec ∈ keys.map ofText ∧ spec.name = name := by
  obtain ⟨there, named⟩ := List.mem_filter.1 (List.mem_of_getLast? last)
  exact ⟨there, of_decide_eq_true named⟩

theorem lastFor_cons (key : String) (keys : List String) (name : String) :
    lastFor (key :: keys) name = (lastFor keys name).or
      (if (ofText key).name = name then some (ofText key) else none) := by
  unfold lastFor
  rw [List.map_cons, getLast?_filter_cons]
  simp only [decide_eq_true_eq]

theorem lastFor_append (before after : List String) (name : String) :
    lastFor (before ++ after) name = (lastFor after name).or (lastFor before name) := by
  unfold lastFor
  rw [List.map_append, List.filter_append, List.getLast?_append]

theorem lastFor_eq_some_iff (apart : (keys.map fun key => (ofText key).name).Nodup) :
    lastFor keys name = some spec ↔ spec.name = name ∧ spec ∈ keys.map ofText := by
  constructor
  · intro last
    exact (mem_of_lastFor last).symm
  induction keys with
  | nil => simp
  | cons key rest ih =>
    rintro ⟨named, there⟩
    obtain ⟨first, tail⟩ := List.nodup_cons.1 apart
    rw [lastFor_cons]
    rcases List.mem_cons.1 there with rfl | later
    · have none : lastFor rest name = none := by
        cases found : lastFor rest name with
        | none => rfl
        | some other =>
          obtain ⟨member, alike⟩ := mem_of_lastFor found
          obtain ⟨key', there', rfl⟩ := List.mem_map.1 member
          exact absurd (List.mem_map.2 ⟨key', there', alike.trans named.symm⟩) first
      rw [none, Option.none_or, if_pos named]
    · rw [ih tail ⟨named, later⟩, Option.some_or]

theorem lastFor_perm (perm : keys.Perm keys')
    (apart : (keys.map fun key => (ofText key).name).Nodup) (name : String) :
    lastFor keys name = lastFor keys' name := by
  have apart' : (keys'.map fun key => (ofText key).name).Nodup := (perm.map _).nodup_iff.1 apart
  apply Option.ext
  intro spec
  rw [lastFor_eq_some_iff apart, lastFor_eq_some_iff apart', (perm.map ofText).mem_iff]

end KeySpec

namespace Extraction

variable {c : Context} {p q : Parameters} {keys : List String}

/-- Can every entry that one of the keys names be converted as that key wants it? -/
def Converts (c : Context) (keys : List String) : Prop :=
  ∀ key ∈ keys, ∀ v, c.get? (KeySpec.ofText key).name = some v →
    ∃ value, v.toParameter (KeySpec.ofText key).name (KeySpec.ofText key).type = .ok value

theorem addEntry_absent (p : Parameters) {key : String}
    (absent : c.get? (KeySpec.ofText key).name = none) : addEntry c p key = .ok p := by
  simp only [addEntry, absent]

theorem addEntry_present (p : Parameters) {key : String} {v : ContextValue}
    (there : c.get? (KeySpec.ofText key).name = some v) :
    addEntry c p key
      = (v.toParameter (KeySpec.ofText key).name (KeySpec.ofText key).type).map
        fun value => p.insert (KeySpec.ofText key).name ⟨value, true⟩ := by
  simp only [addEntry, there]

theorem addEntry_ok_iff {key : String} :
    (∃ q, addEntry c p key = .ok q) ↔ Converts c [key] := by
  simp only [Converts, List.forall_mem_singleton]
  cases found : c.get? (KeySpec.ofText key).name with
  | none => simp [addEntry_absent p found]
  | some v =>
    rw [addEntry_present p found]
    cases converted : v.toParameter (KeySpec.ofText key).name (KeySpec.ofText key).type <;>
      simp [Except.map, converted]

theorem addEntries_ok_iff : (∃ q, addEntries c p keys = .ok q) ↔ Converts c keys := by
  induction keys generalizing p with
  | nil => simp [addEntries, Converts]
  | cons key rest ih =>
    have split : Converts c (key :: rest) ↔ Converts c [key] ∧ Converts c rest := by
      simp [Converts]
    rw [split, ← addEntry_ok_iff (p := p), addEntries]
    cases addEntry c p key with
    | error fault => simp
    | ok added => simp [ih]

/-- What one key makes of a name. -/
theorem get?_addEntry {key : String} (added : addEntry c p key = .ok q) (name : String) :
    q.get? name = p.get? name ∧ (c.get? name = none ∨ (KeySpec.ofText key).name ≠ name) ∨
      ∃ v value, (KeySpec.ofText key).name = name ∧ c.get? name = some v ∧
        v.toParameter name (KeySpec.ofText key).type = .ok value ∧
          q.get? name = some ⟨value, true⟩ := by
  cases found : c.get? (KeySpec.ofText key).name with
  | none =>
    rw [addEntry_absent p found] at added
    cases added
    by_cases here : (KeySpec.ofText key).name = name
    · exact Or.inl ⟨rfl, Or.inl (here ▸ found)⟩
    · exact Or.inl ⟨rfl, Or.inr here⟩
  | some v =>
    rw [addEntry_present p found] at added
    cases converted : v.toParameter (KeySpec.ofText key).name (KeySpec.ofText key).type with
    | error fault =>
      rw [converted] at added
      cases added
    | ok value =>
      rw [converted] at added
      cases added
      by_cases here : (KeySpec.ofText key).name = name
      · subst here
        refine Or.inr ⟨v, value, rfl, found, converted, ?_⟩
        simp
      · refine Or.inl ⟨?_, Or.inr here⟩
        simp [here]

/-- What stands under each name of the parameters that some keys make of others. -/
structure Adds (c : Context) (keys : List String) (p q : Parameters) : Prop where
  /-- The last key for a name decides, where the context has an entry for it. -/
  named : ∀ name spec v, KeySpec.lastFor keys name = some spec → c.get? name = some v →
    ∃ value, v.toParameter name spec.type = .ok value ∧ q.get? name = some ⟨value, true⟩
  /-- All other names are left as they are. -/
  others : ∀ name, KeySpec.lastFor keys name = none ∨ c.get? name = none →
    q.get? name = p.get? name

theorem adds_addEntries (added : addEntries c p keys = .ok q) : Adds c keys p q := by
  induction keys generalizing p with
  | nil =>
    cases added
    constructor
    · intro name spec v last
      cases last
    · intro name _
      rfl
  -- What the first key makes of a name stays only where none of the rest is for it.
  | cons key rest ih =>
    rw [addEntries] at added
    cases first : addEntry c p key with
    | error fault =>
      rw [first] at added
      cases added
    | ok m =>
      rw [first] at added
      have later := ih added
      constructor
      · intro name spec v last there
        rw [KeySpec.lastFor_cons] at last
        cases found : KeySpec.lastFor rest name with
        | some spec' =>
          rw [found] at last
          cases last
          exact later.named name spec v found there
        | none =>
          rw [found, Option.none_or] at last
          split at last
          · rename_i here
            cases last
            rcases get?_addEntry first name with ⟨_, absent | other⟩ |
              ⟨v', value, _, there', converted, put⟩
            · cases there.symm.trans absent
            · exact absurd here other
            · cases there.symm.trans there'
              exact ⟨value, converted, (later.others name (Or.inl found)).trans put⟩
          · cases last
      · intro name untouched
        rw [KeySpec.lastFor_cons, Option.or_eq_none_iff] at untouched
        have afterwards := later.others name (untouched.imp_left And.left)
        rcases get?_addEntry first name with ⟨kept, _⟩ | ⟨v, value, here, there, _⟩
        · exact afterwards.trans kept
        · rw [if_pos here, there] at untouched
          simp at untouched

theorem Adds.unique {q' : Parameters} (adds : Adds c keys p q) (adds' : Adds c keys p q') :
    q = q' := by
  apply KeyMap.ext_get?
  intro name
  cases last : KeySpec.lastFor keys name with
  | none => rw [adds.others name (Or.inl last), adds'.others name (Or.inl last)]
  | some spec =>
    cases there : c.get? name with
    | none => rw [adds.others name (Or.inr there), adds'.others name (Or.inr there)]
    | some v =>
      obtain ⟨value, converted, put⟩ := adds.named name spec v last there
      obtain ⟨value', converted', put'⟩ := adds'.named name spec v last there
      cases converted.symm.trans converted'
      rw [put, put']

theorem addEntries_eq_ok_iff : addEntries c p keys = .ok q ↔ Converts c keys ∧ Adds c keys p q := by
  constructor
  · intro added
    exact ⟨addEntries_ok_iff.1 ⟨q, added⟩, adds_addEntries added⟩
  · rintro ⟨converts, adds⟩
    obtain ⟨q', added⟩ := addEntries_ok_iff.2 converts
    rw [added, (adds_addEntries added).unique adds]

theorem Adds.perm {keys' : List String} (adds : Adds c keys p q) (perm : keys.Perm keys')
    (apart : (keys.map fun key => (KeySpec.ofText key).name).Nodup) : Adds c keys' p q := by
  constructor
  · intro name spec v last
    rw [← KeySpec.lastFor_perm perm apart] at last
    exact adds.named name spec v last
  · intro name untouched
    rw [← KeySpec.lastFor_perm perm apart] at untouched
    exact adds.others name untouched

theorem addEntries_perm {keys' : List String} (perm : keys.Perm keys')
    (apart : (keys.map fun key => (KeySpec.ofText key).name).Nodup) :
    addEntries c p keys = .ok q ↔ addEntries c p keys' = .ok q := by
  have converts : Converts c keys ↔ Converts c keys' :=
    forall_congr' fun key => by rw [perm.mem_iff]
  have apart' : (keys'.map fun key => (KeySpec.ofText key).name).Nodup :=
    (perm.map _).nodup_iff.1 apart
  rw [addEntries_eq_ok_iff, addEntries_eq_ok_iff, converts]
  exact and_congr_right fun _ => ⟨fun adds => adds.perm perm apart,
    fun adds => adds.perm perm.symm apart'⟩

/-- The parameters that a child inherits before any key is looked at. -/
def inherited (x : Extraction) (s : StepExecution) : Parameters :=
  if x.inheritAll then s.jobParameters else .empty

/-- An extraction succeeds exactly if every entry that a key names can be converted, and its
outcome is told name by name: the last key for a name decides where there is an entry, and
all other names are as inherited. So keys for different names can be put in any order. -/
theorem extracted_pointwise (x : Extraction) (s : StepExecution) :
    ((∃ q, x.parameters s = .ok q) ↔ Converts s.context x.keys) ∧
      (∀ q, x.parameters s = .ok q ↔
        Converts s.context x.keys ∧ Adds s.context x.keys (x.inherited s) q) ∧
      ∀ keys', x.keys.Perm keys' → (x.keys.map fun key => (KeySpec.ofText key).name).Nodup →
        ∀ q, x.parameters s = .ok q ↔ { x with keys := keys' }.parameters s = .ok q := by
  refine ⟨addEntries_ok_iff, fun q => addEntries_eq_ok_iff, ?_⟩
  intro keys' perm apart q
  exact addEntries_perm perm apart

end Extraction

end NestedBatch
