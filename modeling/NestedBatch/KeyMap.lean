/-! Finite maps kept as a list sorted by key, so that two maps with the same
entries are the same value and every walk over a map meets the keys in order. -/
namespace NestedBatch

theorem key_eq_of_not_lt {κ : Type} [LT κ] [LE κ] [Std.IsLinearOrder κ] [Std.LawfulOrderLT κ]
    {a b : κ} (h : ¬ a < b) (h' : ¬ b < a) : a = b :=
  Std.le_antisymm (Std.not_lt.1 h') (Std.not_lt.1 h)

section Lists

variable {κ α : Type} [LT κ] [DecidableLT κ]

/-- Puts a pair at its place in a sorted list; a pair with that key is replaced. -/
def insertSorted (key : κ) (value : α) : List (κ × α) → List (κ × α)
  | [] => [(key, value)]
  | (k, v) :: rest =>
    if key < k then (key, value) :: (k, v) :: rest
    else if k < key then (k, v) :: insertSorted key value rest
    else (key, value) :: rest

def lookupKey [DecidableEq κ] (key : κ) : List (κ × α) → Option α
  | [] => none
  | (k, v) :: rest => if k = key then some v else lookupKey key rest

theorem mem_insertSorted {key : κ} {value : α} {entries : List (κ × α)} {p : κ × α}
    (h : p ∈ insertSorted key value entries) : p = (key, value) ∨ p ∈ entries := by
  induction entries with
  | nil => simpa [insertSorted] using h
  | cons head rest ih =>
    obtain ⟨k, v⟩ := head
    simp only [insertSorted] at h
    split at h
    · simpa using h
    · split at h
      · rcases List.mem_cons.1 h with here | there
        · exact Or.inr (here ▸ List.mem_cons_self)
        · exact (ih there).imp id (List.mem_cons_of_mem _)
      · rcases List.mem_cons.1 h with here | there
        · exact Or.inl here
        · exact Or.inr (List.mem_cons_of_mem _ there)

variable [LE κ] [Std.IsLinearOrder κ] [Std.LawfulOrderLT κ]

theorem insertSorted_sorted {key : κ} {value : α} {entries : List (κ × α)}
    (h : entries.Pairwise fun a b => a.1 < b.1) :
    (insertSorted key value entries).Pairwise fun a b => a.1 < b.1 := by
  induction entries with
  | nil => simp [insertSorted]
  | cons head rest ih =>
    obtain ⟨k, v⟩ := head
    obtain ⟨first, tail⟩ := List.pairwise_cons.1 h
    simp only [insertSorted]
    split
    · rename_i below
      refine List.Pairwise.cons ?_ h
      intro p hp
      rcases List.mem_cons.1 hp with rfl | later
      · exact below
      · exact Std.lt_trans below (first p later)
    · split
      · rename_i above
        refine List.Pairwise.cons ?_ (ih tail)
        intro p hp
        rcases mem_insertSorted hp with rfl | later
        · exact above
        · exact first p later
      · rename_i notBelow notAbove
        have same : key = k := key_eq_of_not_lt notBelow notAbove
        exact List.Pairwise.cons (fun p hp => same ▸ first p hp) tail

end Lists

/-- A map from keys to values, its entries in increasing order of the keys. -/
structure KeyMap (κ α : Type) [LT κ] where
  entries : List (κ × α)
  sorted : entries.Pairwise fun a b => a.1 < b.1

namespace KeyMap

variable {κ α β : Type} [LT κ]

theorem ext {m n : KeyMap κ α} (h : m.entries = n.entries) : m = n := by
  cases m; cases n; cases h; rfl

instance [DecidableEq κ] [DecidableEq α] : DecidableEq (KeyMap κ α) := fun m n =>
  if h : m.entries = n.entries then isTrue (ext h) else isFalse fun e => h (e ▸ rfl)

def empty : KeyMap κ α := ⟨[], List.Pairwise.nil⟩

instance : Inhabited (KeyMap κ α) := ⟨empty⟩

def size (m : KeyMap κ α) : Nat := m.entries.length

def isEmpty (m : KeyMap κ α) : Bool := m.entries.isEmpty

def get? [DecidableEq κ] (m : KeyMap κ α) (key : κ) : Option α := lookupKey key m.entries

def contains [DecidableEq κ] (m : KeyMap κ α) (key : κ) : Bool := (m.get? key).isSome

@[simp] theorem get?_empty [DecidableEq κ] (k : κ) : (empty : KeyMap κ α).get? k = none := rfl

/-- The entries that satisfy a test; the order of the rest stays. -/
def filter (m : KeyMap κ α) (keep : κ × α → Bool) : KeyMap κ α :=
  ⟨m.entries.filter keep, m.sorted.filter keep⟩

variable [DecidableLT κ] [LE κ] [Std.IsLinearOrder κ] [Std.LawfulOrderLT κ]

def insert (m : KeyMap κ α) (key : κ) (value : α) : KeyMap κ α :=
  ⟨insertSorted key value m.entries, insertSorted_sorted m.sorted⟩

/-- The map of a list of pairs; of several pairs with one key the last counts. -/
def ofList (pairs : List (κ × α)) : KeyMap κ α :=
  pairs.foldl (fun m p => m.insert p.1 p.2) empty

variable [DecidableEq κ]

theorem lookupKey_insertSorted (key k : κ) (value : α) (entries : List (κ × α))
    (h : entries.Pairwise fun a b => a.1 < b.1) :
    lookupKey k (insertSorted key value entries)
      = if key = k then some value else lookupKey k entries := by
  induction entries with
  | nil => simp [insertSorted, lookupKey]
  | cons head rest ih =>
    obtain ⟨k', v'⟩ := head
    simp only [insertSorted]
    split
    · simp [lookupKey]
    · split
      · rename_i above
        have differ : k' = k → key ≠ k := by
          intro e e'
          subst e
          subst e'
          exact Std.lt_irrefl above
        simp only [lookupKey, ih h.of_cons]
        by_cases hk : k' = k
        · simp [hk, differ hk]
        · simp [hk]
      · rename_i notBelow notAbove
        have same : key = k' := key_eq_of_not_lt notBelow notAbove
        subst same
        simp only [lookupKey]
        split <;> rfl

@[simp] theorem get?_insert (m : KeyMap κ α) (key k : κ) (value : α) :
    (m.insert key value).get? k = if key = k then some value else m.get? k :=
  lookupKey_insertSorted key k value m.entries m.sorted

end KeyMap

end NestedBatch
