import NestedBatch.Parameter.KeySpec
import NestedBatch.Proofs.Context.Put

/-! Values inferred from texts. Each keeps its text, however it was read, and two of them
agree only if they were inferred from one text. -/
namespace NestedBatch

namespace ContextValue

variable {raw : String} {v : ContextValue}

theorem longText_of_longOf? {n : Int64} (read : longOf? raw = some n) : longText n = raw := by
  unfold longOf? at read
  exact of_decide_eq_true (Option.filter_eq_some_iff.1 read).2

theorem of_doubleOf? {d : Double} (read : doubleOf? raw = some d) :
    d.isFinite = true ∧ d.text = raw := by
  unfold doubleOf? at read
  have kept := (Option.filter_eq_some_iff.1 read).2
  rw [Bool.and_eq_true] at kept
  exact ⟨kept.1, of_decide_eq_true kept.2⟩

/-- What can come of a text. -/
theorem infer_cases (raw : String) :
    (∃ n, longOf? raw = some n ∧ infer raw = .long n) ∨
      (∃ d, longOf? raw = none ∧ doubleOf? raw = some d ∧ infer raw = .double d) ∨
      (raw = "true" ∧ infer raw = .bool true) ∨ (raw = "false" ∧ infer raw = .bool false) ∨
      infer raw = .string raw := by
  unfold infer
  split
  · rename_i n read
    exact Or.inl ⟨n, read, rfl⟩
  · rename_i absent
    split
    · rename_i d read
      exact Or.inr (Or.inl ⟨d, absent, read, rfl⟩)
    · split
      · rename_i yes
        exact Or.inr (Or.inr (Or.inl ⟨yes, rfl⟩))
      · split
        · rename_i no
          exact Or.inr (Or.inr (Or.inr (Or.inl ⟨no, rfl⟩)))
        · exact Or.inr (Or.inr (Or.inr (Or.inr rfl)))

theorem text_infer (raw : String) : (infer raw).text = raw := by
  rcases infer_cases raw with ⟨n, read, eq⟩ | ⟨d, _, read, eq⟩ | ⟨same, eq⟩ | ⟨same, eq⟩ | eq
  · rw [eq]
    exact longText_of_longOf? read
  · rw [eq]
    exact (of_doubleOf? read).2
  · rw [eq, same]
    rfl
  · rw [eq, same]
    rfl
  · rw [eq]
    rfl

/-- A zero without a sign is written like a whole number, and so inferred as one. -/
theorem infer_ne_zero {g : Magnitude} (zero : g.mantissa = 0) :
    infer raw ≠ .double (.finite false g) := by
  intro inferred
  rcases infer_cases raw with ⟨n, _, eq⟩ | ⟨d, absent, read, eq⟩ | ⟨_, eq⟩ | ⟨_, eq⟩ | eq <;>
    rw [eq] at inferred <;> cases inferred
  have chars : (Double.finite false g).chars = ['0'] := by
    simp only [Double.chars, NumberStyle.write, zero, if_true]
    rfl
  have text : (Double.finite false g).text = "0" := by
    rw [Double.text, chars]
  have whole : longOf? "0" = some 0 := by decide
  rw [(of_doubleOf? read).2] at text
  rw [text, whole] at absent
  cases absent

theorem double_eq_of_agrees {a b : String} {d d' : Double} (inferred : infer a = .double d)
    (inferred' : infer b = .double d') (same : d.agrees d' = true) : d = d' := by
  cases d with
  | nan => cases d' <;> cases same
  | infinite n =>
    cases d' with
    | nan | finite _ _ => cases same
    | infinite n' => rw [eq_of_beq same]
  | finite n g =>
    cases d' with
    | nan | infinite _ => cases same
    | finite n' g' =>
      simp only [Double.agrees, Bool.and_eq_true, Bool.or_eq_true, beq_iff_eq] at same
      obtain ⟨rfl, rfl | zero⟩ := same
      · rfl
      · have below : ∀ {raw n}, infer raw = .double (.finite n g) → n = true := by
          intro raw n inferred
          cases n with
          | true => rfl
          | false => exact absurd inferred (infer_ne_zero zero)
        rw [below inferred, below inferred']

theorem infer_ne_parameters (p : Parameters) : infer raw ≠ .parameters p := by
  rcases infer_cases raw with ⟨n, _, eq⟩ | ⟨d, _, _, eq⟩ | ⟨_, eq⟩ | ⟨_, eq⟩ | eq <;> rw [eq] <;>
    exact nofun

/-- Values that agree are the same, as far as agreeing is not left to numbers or to sets. -/
theorem cases_of_agrees {v w : ContextValue} (same : v.agrees w = true) :
    v = w ∨ (∃ d d', v = .double d ∧ w = .double d' ∧ d.agrees d' = true) ∨
      ∃ p, v = .parameters p := by
  cases v with
  | double d =>
    cases w with
    | double d' => exact Or.inr (Or.inl ⟨d, d', rfl, rfl, same⟩)
    | _ => cases same
  | parameters p => exact Or.inr (Or.inr ⟨p, rfl⟩)
  | string s | long n | date t | bool b =>
    cases w <;> simp only [agrees, Bool.false_eq_true, decide_eq_true_eq] at same
    exact Or.inl (congrArg _ same)

theorem infer_agrees {a b : String} (same : (infer a).agrees (infer b) = true) : a = b := by
  rw [← text_infer a, ← text_infer b]
  rcases cases_of_agrees same with eq | ⟨d, d', inferred, inferred', alike⟩ | ⟨p, set⟩
  · rw [eq]
  · rw [inferred, inferred', double_eq_of_agrees inferred inferred' alike]
  · exact absurd set (infer_ne_parameters p)

theorem text_plainParameter (v : ContextValue) : v.plainParameter.text = v.text := by
  cases v <;> rfl

end ContextValue

/-- Is what a key names handed over as its text, whatever value it has? -/
def KeySpec.IsTextual (spec : KeySpec) : Prop := spec.type = none ∨ spec.type = some .string

instance (spec : KeySpec) : Decidable spec.IsTextual :=
  inferInstanceAs (Decidable (_ ∨ _))

theorem ContextValue.text_toParameter {spec : KeySpec} (textual : spec.IsTextual) {name : String}
    {v : ContextValue} {value : ParameterValue}
    (converted : v.toParameter name spec.type = .ok value) : value.text = v.text := by
  rcases textual with none | string
  · rw [none] at converted
    cases converted
    exact v.text_plainParameter
  · rw [string] at converted
    cases converted
    rfl

namespace Context

/-- Filing what a text stands for over what another text stood for. -/
theorem get?_put_infer {c : Context} {texts : String → Option String}
    (before : ∀ key, c.get? key = (texts key).map ContextValue.infer) (key raw other : String) :
    (c.put key (.infer raw)).get? other
      = (if key = other then some raw else texts other).map ContextValue.infer := by
  by_cases here : key = other
  · subst here
    rw [if_pos rfl, Option.map_some]
    rcases c.put_cases key (.infer raw) with ⟨kept, held, there, same⟩ | ⟨filed, _⟩
    · obtain ⟨old, _, rfl⟩ := Option.map_eq_some_iff.1 ((before key).symm.trans there)
      rw [kept, there, ContextValue.infer_agrees same]
    · rw [filed, get?, KeyMap.get?_insert, if_pos rfl]
  · rw [if_neg here, get?_put_of_ne c here, before]

end Context

end NestedBatch
