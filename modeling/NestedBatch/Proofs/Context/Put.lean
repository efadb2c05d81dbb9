import NestedBatch.Context.Basic
import NestedBatch.Proofs.KeyMap

/-! What putting one value makes of a context: nothing, where the context has a value that
agrees with it, or else an entry, and the flag that there are changes. -/
namespace NestedBatch.Context

/-- The key is new to the context, or has a value that does not agree with this one. -/
def Lacks (c : Context) (key : String) (value : ContextValue) : Prop :=
  ∀ held, c.get? key = some held → held.agrees value = false

/-- Putting a value changes nothing where the context has it, and else files it and sets the
flag. -/
theorem put_cases (c : Context) (key : String) (value : ContextValue) :
    (c.put key value = c ∧ ∃ held, c.get? key = some held ∧ held.agrees value = true) ∨
      (c.put key value = ⟨c.entries.insert key value, true⟩ ∧ c.Lacks key value) := by
  unfold put
  cases there : c.get? key with
  | none =>
    refine .inr ⟨rfl, ?_⟩
    intro held found
    rw [there] at found
    cases found
  | some held =>
    cases same : held.agrees value with
    | true => exact .inl ⟨by simp [same], held, rfl, same⟩
    | false =>
      refine .inr ⟨by simp [same], ?_⟩
      intro other found
      rw [there] at found
      cases found
      exact same

theorem get?_put_of_ne (c : Context) {key other : String} (differ : key ≠ other)
    (value : ContextValue) : (c.put key value).get? other = c.get? other := by
  rcases put_cases c key value with ⟨kept, _⟩ | ⟨filed, _⟩
  · rw [kept]
  · rw [filed, get?, KeyMap.get?_insert, if_neg differ]
    rfl

theorem mem_entries_put {c : Context} {key : String} {value : ContextValue}
    {e : String × ContextValue} (there : e ∈ (c.put key value).entries.entries) :
    e = (key, value) ∨ e ∈ c.entries.entries := by
  rcases c.put_cases key value with ⟨kept, _⟩ | ⟨filed, _⟩
  · rw [kept] at there
    exact .inr there
  · rw [filed] at there
    exact mem_insertSorted there

end NestedBatch.Context
