import NestedBatch.Parameter.Set
import NestedBatch.Proofs.KeyMap

/-! The text that the key of a job instance is hashed from. It can be taken apart again, and
tells of each identifying parameter its name, its type and its text, and nothing else. -/
namespace NestedBatch

/-- What is told of a parameter: the name of its type, and its text. -/
def Parameter.told (q : Parameter) : String × String := (q.value.type.name, q.value.text)

namespace Parameters

/-- A separator that no backslash stands before. -/
def IsEnd (c : Char) : Prop := c = '=' ∨ c = ':' ∨ c = ';'

theorem escape_cons (c : Char) (s : List Char) : escape (c :: s) =
    (if c = '\\' ∨ c = '=' ∨ c = ':' ∨ c = ';' then ['\\', c] else [c]) ++ escape s :=
  List.flatMap_cons

/-- An escaped part goes up to the first separator that no backslash stands before. -/
theorem escape_append {a b x y : List Char} {c d : Char} (ends : IsEnd c) (ends' : IsEnd d)
    (same : escape a ++ c :: x = escape b ++ d :: y) : a = b ∧ c = d ∧ x = y := by
  have backslash : ∀ {c}, IsEnd c → c ≠ '\\' := by
    rintro c (rfl | rfl | rfl) <;> decide
  have starts : ∀ {c d : Char} {s x y : List Char}, IsEnd c →
      c :: x ≠ escape (d :: s) ++ y := by
    intro c d s x y ends same
    rw [escape_cons] at same
    split at same
    · exact backslash ends (List.cons.inj same).1
    · rename_i other
      have first : c = d := (List.cons.inj same).1
      exact other (Or.inr (first ▸ ends))
  -- Both parts go on with the same character, or both end here.
  induction a generalizing b with
  | nil =>
    cases b with
    | nil => exact ⟨rfl, List.cons.inj same⟩
    | cons e s => exact absurd same (starts ends)
  | cons e s ih =>
    cases b with
    | nil => exact absurd same.symm (starts ends')
    | cons f t =>
      rw [escape_cons, escape_cons] at same
      have split : e = f ∧ escape s ++ c :: x = escape t ++ d :: y := by
        split at same <;> split at same <;> simp only [List.cons_append, List.nil_append,
          List.cons.injEq, true_and] at same
        · exact same
        · rename_i other
          exact absurd (Or.inl same.1.symm) other
        · rename_i other _
          exact absurd (Or.inl same.1) other
        · exact same
      obtain ⟨rfl, rest⟩ := split
      obtain ⟨rfl, ended⟩ := ih rest
      exact ⟨rfl, ended⟩

theorem escape_typeName (t : ParameterType) : escape t.name.toList = t.name.toList := by
  cases t <;> rfl

theorem typeName_injective {t u : ParameterType} (same : t.name.toList = u.name.toList) :
    t = u := by
  revert same
  cases t <;> cases u <;> decide

def toldEntry (e : String × Parameter) : String × (String × String) := (e.1, e.2.told)

theorem canonicalEntry_append {e f : String × Parameter} {x y : List Char}
    (same : canonicalEntry e ++ x = canonicalEntry f ++ y) : toldEntry e = toldEntry f ∧ x = y := by
  simp only [canonicalEntry, List.append_assoc, List.cons_append, List.nil_append] at same
  obtain ⟨name, _, same⟩ := escape_append (Or.inl rfl) (Or.inl rfl) same
  rw [← escape_typeName e.2.value.type, ← escape_typeName f.2.value.type] at same
  obtain ⟨type, _, same⟩ := escape_append (Or.inr (Or.inl rfl)) (Or.inr (Or.inl rfl)) same
  obtain ⟨text, _, rest⟩ := escape_append (Or.inr (Or.inr rfl)) (Or.inr (Or.inr rfl)) same
  have told : e.2.told = f.2.told :=
    Prod.ext (String.toList_injective type) (String.toList_injective text)
  exact ⟨Prod.ext (String.toList_injective name) told, rest⟩

theorem canonicalEntry_congr {e f : String × Parameter} (same : toldEntry e = toldEntry f) :
    canonicalEntry e = canonicalEntry f := by
  obtain ⟨name, told⟩ := Prod.mk.inj same
  obtain ⟨type, text⟩ := Prod.mk.inj told
  rw [canonicalEntry, name, type, text, canonicalEntry]

/-- One entry after the other can be told from the text of all. -/
theorem flatMap_canonicalEntry_iff {l m : List (String × Parameter)} :
    l.flatMap canonicalEntry = m.flatMap canonicalEntry ↔ l.map toldEntry = m.map toldEntry := by
  have nonempty : ∀ {e : String × Parameter} {x : List Char}, canonicalEntry e ++ x ≠ [] := by
    simp [canonicalEntry]
  induction l generalizing m with
  | nil =>
    cases m with
    | nil => simp
    | cons f m => simp [List.flatMap_cons, nonempty.symm]
  | cons e l ih =>
    cases m with
    | nil => simp [List.flatMap_cons, nonempty]
    | cons f m =>
      rw [List.flatMap_cons, List.flatMap_cons, List.map_cons, List.map_cons, List.cons.injEq]
      constructor
      · intro same
        obtain ⟨here, there⟩ := canonicalEntry_append same
        exact ⟨here, ih.1 there⟩
      · rintro ⟨here, there⟩
        rw [canonicalEntry_congr here, ih.2 there]

variable {p q : Parameters} {name : String}

/-- What is told under a name, if it takes part in the identity. -/
def told? (p : Parameters) (name : String) : Option (String × String) :=
  (p.identifying.get? name).map Parameter.told

theorem lookupKey_toldEntry (p : Parameters) (name : String) :
    lookupKey name (p.identifying.entries.map toldEntry) = p.told? name :=
  lookupKey_map Parameter.told name p.identifying.entries

theorem map_toldEntry_iff :
    p.identifying.entries.map toldEntry = q.identifying.entries.map toldEntry ↔
      ∀ name, p.told? name = q.told? name := by
  have sorted : ∀ p : Parameters,
      (p.identifying.entries.map toldEntry).Pairwise fun a b => a.1 < b.1 :=
    fun p => List.pairwise_map.2 p.identifying.sorted
  constructor
  · intro same name
    rw [← lookupKey_toldEntry, same, lookupKey_toldEntry]
  · intro same
    apply eq_of_lookupKey (sorted p) (sorted q)
    intro name
    rw [lookupKey_toldEntry, lookupKey_toldEntry, same]

theorem told?_eq (p : Parameters) (name : String) :
    p.told? name = ((p.get? name).filter Parameter.identifying).map Parameter.told :=
  congrArg (Option.map Parameter.told) (KeyMap.get?_filter p (fun e => e.2.identifying) name)

/-- The bytes that the key of a job instance is hashed from. -/
def hashed (p : Parameters) : ByteArray := (String.ofList p.canonical).toUTF8

theorem jobKey_eq (p : Parameters) : p.jobKey = Sha256.hex (Sha256.digest p.hashed.toList) := rfl

theorem hashed_eq_iff : p.hashed = q.hashed ↔ p.canonical = q.canonical := by
  constructor
  · intro same
    exact String.ofList_injective (String.toByteArray_inj.1 same)
  · intro same
    rw [hashed, same, hashed]

/-- The keys of two sets are hashed from the same bytes exactly if the sets tell the same of
every name, and what stands under names that identify in neither of them makes no difference
to the key. -/
theorem hashed_unambiguous (p q : Parameters) :
    (p.jobKey = Sha256.hex (Sha256.digest p.hashed.toList) ∧
        q.jobKey = Sha256.hex (Sha256.digest q.hashed.toList)) ∧
      (p.hashed = q.hashed ↔ ∀ name, p.told? name = q.told? name) ∧
      ((∀ name, p.get? name ≠ q.get? name → p.told? name = none ∧ q.told? name = none) →
        p.jobKey = q.jobKey) := by
  have bytes : p.hashed = q.hashed ↔ ∀ name, p.told? name = q.told? name := by
    rw [hashed_eq_iff, ← map_toldEntry_iff]
    exact flatMap_canonicalEntry_iff
  refine ⟨⟨p.jobKey_eq, q.jobKey_eq⟩, bytes, fun unseen => ?_⟩
  have same : ∀ name, p.told? name = q.told? name := by
    intro name
    by_cases alike : p.get? name = q.get? name
    · rw [told?_eq, told?_eq, alike]
    · obtain ⟨silent, silent'⟩ := unseen name alike
      rw [silent, silent']
  rw [jobKey_eq, jobKey_eq, bytes.2 same]

end Parameters

end NestedBatch
