import NestedBatch.Proofs.Calendar.Millis
import NestedBatch.Proofs.Double.Text
import NestedBatch.Proofs.Parameter.Canonical

/-! What the key of a parameter set tells: the names, types and values of its
identifying parameters, but of a date no more than its millisecond, as it is written. -/
namespace NestedBatch

namespace Numeral

theorem ofNat_injective {n m : Nat} (same : ofNat n = ofNat m) : n = m := by
  rw [← value_ofNat n, same, value_ofNat]

theorem ofInt_injective {n m : Int} (same : ofInt n = ofInt m) : n = m := by
  have noSign : ∀ {a b : Nat}, ofNat a ≠ '-' :: ofNat b := by
    intro a b same
    have digit := isDigit_of_mem_ofNat (n := a) (same ▸ List.mem_cons_self)
    exact absurd digit (by decide)
  cases n <;> cases m <;> simp only [ofInt] at same
  · rw [ofNat_injective same]
  · exact absurd same noSign
  · exact absurd same.symm noSign
  · have next := ofNat_injective (List.cons.inj same).2
    rw [Nat.succ.inj next]

end Numeral

/-- As much of a value as its text tells: of a date its millisecond, a leap second within a
minute being the second after. -/
def ParameterValue.keyed : ParameterValue → ParameterValue
  | .date t => .date t.cut
  | value => value

namespace ParameterValue

variable {v w : ParameterValue}

def IsFinite : ParameterValue → Prop
  | .double d => d.isFinite = true
  | _ => True

/-- A value that differs from all others in its text: no zero below zero, no date between
two milliseconds, and no leap second within a minute. -/
def IsPlain : ParameterValue → Prop
  | .double (.finite true g) => g.mantissa ≠ 0
  | .date t => t.nano % 1000000 = 0 ∧ t.InPlace
  | _ => True

theorem longText_injective {n m : Int64} (same : longText n = longText m) : n = m :=
  Int64.toInt_inj.1 (Numeral.ofInt_injective (String.ofList_injective same))

/-- Type and text of a value tell it, but for what no text tells of a date. -/
theorem text_eq_iff (finite : v.IsFinite) (finite' : w.IsFinite) :
    v.type = w.type ∧ v.text = w.text ↔ v.keyed = w.keyed := by
  cases v <;> cases w <;> simp only [type, text, keyed, reduceCtorEq, false_and, true_and,
    string.injEq, long.injEq, double.injEq, date.injEq]
  · exact ⟨longText_injective, congrArg longText⟩
  · exact ⟨Double.eq_of_text finite finite', congrArg Double.text⟩
  · exact Instant.text_millis_iff

theorem agrees_double_iff {d d' : Double} (finite : d.isFinite = true)
    (plain : (double d).IsPlain) (plain' : (double d').IsPlain) :
    d.agrees d' = true ↔ d = d' := by
  cases d with
  | nan | infinite _ => cases finite
  | finite a g =>
    cases d' with
    | nan | infinite _ => simp [Double.agrees]
    | finite b g' =>
      simp only [Double.agrees, Bool.and_eq_true, Bool.or_eq_true, beq_iff_eq,
        Double.finite.injEq]
      constructor
      · rintro ⟨rfl, same | zero⟩
        · exact ⟨same, rfl⟩
        · cases a <;> cases b
          · exact ⟨rfl, rfl⟩
          · exact absurd zero plain'
          · exact absurd zero plain
          · exact ⟨rfl, rfl⟩
      · rintro ⟨rfl, rfl⟩
        exact ⟨rfl, Or.inl rfl⟩

theorem agrees_iff (finite : v.IsFinite) (plain : v.IsPlain) (plain' : w.IsPlain) :
    v.agrees w = true ↔ v.keyed = w.keyed := by
  cases v <;> cases w <;> simp only [agrees, keyed, reduceCtorEq, Bool.false_eq_true,
    string.injEq, long.injEq, double.injEq, date.injEq, decide_eq_true_eq]
  · exact agrees_double_iff finite plain plain'
  · rw [Instant.cut_of_whole plain.1 plain.2, Instant.cut_of_whole plain'.1 plain'.2]

end ParameterValue

namespace Parameters

def keyedEntry (e : String × Parameter) : String × ParameterValue := (e.1, e.2.value.keyed)

/-- What is told of two entries is the same exactly if they are the same but for what no
text tells of a date. -/
theorem toldEntry_eq_iff {e f : String × Parameter} (finite : e.2.value.IsFinite)
    (finite' : f.2.value.IsFinite) : toldEntry e = toldEntry f ↔ keyedEntry e = keyedEntry f := by
  have type : e.2.value.type.name = f.2.value.type.name ↔ e.2.value.type = f.2.value.type :=
    ⟨fun same => typeName_injective (congrArg String.toList same), congrArg ParameterType.name⟩
  simp only [toldEntry, keyedEntry, Parameter.told, Prod.mk.injEq, type]
  rw [ParameterValue.text_eq_iff finite finite']

theorem map_toldEntry_eq_iff {l m : List (String × Parameter)}
    (finite : ∀ e ∈ l, e.2.value.IsFinite) (finite' : ∀ e ∈ m, e.2.value.IsFinite) :
    l.map toldEntry = m.map toldEntry ↔ l.map keyedEntry = m.map keyedEntry := by
  induction l generalizing m with
  | nil => simp
  | cons e l ih =>
    cases m with
    | nil => simp
    | cons f m =>
      obtain ⟨first, rest⟩ := List.forall_mem_cons.1 finite
      obtain ⟨first', rest'⟩ := List.forall_mem_cons.1 finite'
      rw [List.map_cons, List.map_cons, List.map_cons, List.map_cons, List.cons.injEq,
        List.cons.injEq, toldEntry_eq_iff first first', ih rest rest']

/-- What identifies an instance of a job: the identifying parameters, by name and value,
with dates cut to the milliseconds that are written of them. -/
def identity (p : Parameters) : List (String × ParameterValue) :=
  p.identifying.entries.map keyedEntry

def IsFinite (p : Parameters) : Prop := ∀ e ∈ p.identifying.entries, e.2.value.IsFinite

def IsPlain (p : Parameters) : Prop := ∀ e ∈ p.identifying.entries, e.2.value.IsPlain

variable {p q : Parameters}

theorem canonical_eq_iff (finite : p.IsFinite) (finite' : q.IsFinite) :
    p.canonical = q.canonical ↔ p.identity = q.identity :=
  flatMap_canonicalEntry_iff.trans (map_toldEntry_eq_iff finite finite')

/-- The texts that two keys are made of have no collision of the hash. -/
def NoCollision (p q : Parameters) : Prop :=
  Sha256.hexOfText (String.ofList p.canonical) = Sha256.hexOfText (String.ofList q.canonical) →
    String.ofList p.canonical = String.ofList q.canonical

theorem jobKey_eq_iff_identity (finite : p.IsFinite) (finite' : q.IsFinite)
    (apart : NoCollision p q) : p.jobKey = q.jobKey ↔ p.identity = q.identity := by
  rw [← canonical_eq_iff finite finite']
  constructor
  · intro same
    exact String.ofList_injective (apart same)
  · intro same
    rw [jobKey, same, jobKey]

structure IsPlainEntry (e : String × Parameter) : Prop where
  identifying : e.2.identifying = true
  finite : e.2.value.IsFinite
  plain : e.2.value.IsPlain

theorem map_keyedEntry_iff {l m : List (String × Parameter)} (plain : ∀ e ∈ l, IsPlainEntry e)
    (plain' : ∀ e ∈ m, IsPlainEntry e) :
    l.map keyedEntry = m.map keyedEntry ↔ l.length = m.length ∧
      (l.zip m).all (fun e => e.1.1 = e.2.1 && e.1.2.agrees e.2.2) = true := by
  induction l generalizing m with
  | nil => cases m <;> simp
  | cons e l ih =>
    cases m with
    | nil => simp
    | cons f m =>
      obtain ⟨here, there⟩ := List.forall_mem_cons.1 plain
      obtain ⟨here', there'⟩ := List.forall_mem_cons.1 plain'
      have value := ParameterValue.agrees_iff here.finite here.plain here'.plain
      have flag : e.2.identifying = f.2.identifying :=
        here.identifying.trans here'.identifying.symm
      simp only [List.map_cons, List.cons.injEq, ih there there', List.length_cons,
        Nat.add_right_cancel_iff, List.zip_cons_cons, List.all_cons, Bool.and_eq_true,
        decide_eq_true_eq, keyedEntry, Prod.mk.injEq, Parameter.agrees, flag, and_true, value]
      exact and_left_comm

theorem identity_eq_iff_agree (finite : p.IsFinite) (finite' : q.IsFinite) (plain : p.IsPlain)
    (plain' : q.IsPlain) :
    p.identity = q.identity ↔ p.identifying.agree q.identifying = true := by
  have entry : ∀ {p : Parameters}, p.IsFinite → p.IsPlain →
      ∀ e ∈ p.identifying.entries, IsPlainEntry e :=
    fun finite plain e he => ⟨(List.mem_filter.1 he).2, finite e he, plain e he⟩
  rw [identity, identity, map_keyedEntry_iff (entry finite plain) (entry finite' plain')]
  rw [agree, Bool.and_eq_true]
  exact and_congr_left' decide_eq_true_iff.symm

end Parameters

end NestedBatch
