import NestedBatch.Proofs.Calendar.Stored
import NestedBatch.Proofs.Json.Number

/-! Records, lists, maps and tagged values are read out of the JSON values that
they were turned into. -/
namespace NestedBatch

section Maps

variable {κ α : Type} [LT κ] [DecidableLT κ] [LE κ] [Std.IsLinearOrder κ] [Std.LawfulOrderLT κ]

theorem insertSorted_last {key : κ} {value : α} {entries : List (κ × α)}
    (above : ∀ p ∈ entries, p.1 < key) :
    insertSorted key value entries = entries ++ [(key, value)] := by
  induction entries with
  | nil => rfl
  | cons head rest ih =>
    obtain ⟨k, v⟩ := head
    have below : k < key := above (k, v) List.mem_cons_self
    have notAbove : ¬ key < k := fun h => Std.lt_irrefl (Std.lt_trans below h)
    have tail := ih fun p hp => above p (List.mem_cons_of_mem _ hp)
    simp only [insertSorted, if_neg notAbove, if_pos below, tail, List.cons_append]

theorem entries_foldl_insert {m : KeyMap κ α} {rest : List (κ × α)}
    (sorted : (m.entries ++ rest).Pairwise fun a b => a.1 < b.1) :
    (rest.foldl (fun m p => m.insert p.1 p.2) m).entries = m.entries ++ rest := by
  induction rest generalizing m with
  | nil => exact (List.append_nil _).symm
  | cons p rest ih =>
    have above : ∀ q ∈ m.entries, q.1 < p.1 := fun q hq =>
      (List.pairwise_append.1 sorted).2.2 q hq p List.mem_cons_self
    have placed : (m.insert p.1 p.2).entries = m.entries ++ [p] := insertSorted_last above
    rw [List.foldl_cons, ih (by rwa [placed, List.append_assoc]), placed, List.append_assoc]
    rfl

theorem ofList_entries (m : KeyMap κ α) : KeyMap.ofList m.entries = m :=
  KeyMap.ext (entries_foldl_insert (m := .empty) m.sorted)

end Maps

namespace Json

variable {α : Type}

theorem mapM_map {β γ : Type} {f : α → β} {g : α → γ} {read : β → Option γ} {l : List α}
    (back : ∀ a ∈ l, read (f a) = some (g a)) : (l.map f).mapM read = some (l.map g) := by
  induction l with
  | nil => rfl
  | cons a rest ih =>
    have first := back a List.mem_cons_self
    have tail := ih fun b hb => back b (List.mem_cons_of_mem a hb)
    simp [first, tail]

theorem asList_map {β : Type} {f : α → Json} {g : α → β} {read : Json → Option β} {l : List α}
    (back : ∀ a ∈ l, read (f a) = some (g a)) : asList read (.array (l.map f)) = some (l.map g) :=
  mapM_map back

theorem bind_of_some {β : Type} {x : Option α} {f : α → Option β} {a : α} {b : Option β}
    (found : x = some a) (rest : f a = b) : (x >>= f) = b := by
  rw [found]
  exact rest

theorem record?_object (names : List String) (fields : List (String × Json))
    (named : fields.map Prod.fst = names) (distinct : names.Nodup) :
    record? names (.object fields) = some ⟨false, fields⟩ := by
  have known : (fields.filter fun f => names.contains f.1) = fields := by
    refine List.filter_eq_self.2 fun f hf => ?_
    rw [List.contains_iff_mem, ← named]
    exact List.mem_map_of_mem hf
  simp only [record?, known, named, distinct, if_true]

theorem tagged?_tagged (held : Bool) (tag : String) (v : Json) :
    tagged? held (.tagged tag v) = some ⟨tag, v, held⟩ := by
  simp [tagged?, tagged, asName]

theorem asInstant_ofInstant (t : Instant) : asInstant (ofInstant t) = some t.settled := by
  simp only [asInstant, ofInstant, Instant.text, String.toList_ofList, Calendar.readStored_chars]

namespace Record

variable {r : Record} {name : String} {v : Json} {read : Json → Option α} {back : Option α}

theorem required_of (there : r.find? name = some v) (reads : read v = back) :
    r.required name read = back := by
  rw [required, there, Option.bind_some, reads]

theorem withDefault_of {default : α} (there : r.find? name = some v) (reads : read v = back) :
    r.withDefault name default read = back := by
  rw [withDefault, there]
  exact reads

theorem optional_of {t : Option Instant} (there : r.find? name = some (ofOption ofInstant t)) :
    r.optional name asInstant = some (t.map Instant.settled) := by
  rw [optional, there]
  cases t with
  | none => rfl
  | some t => exact congrArg (Option.map some) (asInstant_ofInstant t)

end Record

end Json

end NestedBatch
