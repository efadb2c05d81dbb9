import NestedBatch.Proofs.Json.Record
import NestedBatch.Proofs.KeyMap
import NestedBatch.Proofs.Step.Command

/-! The variables in which the process of a command finds its parameters. A variable is
for all names that are spelt alike in it, and holds the text of the last of them, so that
a parameter may be hidden behind another one. -/
namespace NestedBatch

/-- The variables of a process: those that it inherits, and over them those of its call. -/
def Invocation.variables (i : Invocation) (inherited : List (String × String)) :
    KeyMap String String :=
  KeyMap.ofList (inherited ++ i.settings)

namespace CommandJob

variable (c : CommandJob) (e : JobExecution) (inherited : List (String × String))

/-- The last of the parameters that share a variable with a name. -/
def exported? (p : Parameters) (name : String) : Option (String × Parameter) :=
  (p.entries.filter fun e => variableName e.1 = variableName name).getLast?

variable {p : Parameters} {name : String} {q : Parameter}

theorem get?_settings (p : Parameters) (name : String) :
    (KeyMap.ofList (settings p)).get? (variableName name)
      = (exported? p name).map fun e => e.2.value.text := by
  unfold settings exported?
  rw [ofList_entries, KeyMap.get?_ofList, List.filter_map, List.getLast?_map, Option.map_map]
  rfl

/-- For every parameter one is exported that has the same variable, itself or another one. -/
theorem exported?_of_get? (there : p.get? name = some q) :
    ∃ x, exported? p name = some x ∧ p.get? x.1 = some x.2 ∧
      variableName x.1 = variableName name := by
  obtain ⟨x, last, listed, alike⟩ := KeyMap.getLast?_filter_of_get?
    (fun e => variableName e.1 = variableName name) there (decide_eq_true rfl)
  exact ⟨x, last, listed, of_decide_eq_true alike⟩

/-- A process finds the text of the last parameter for a variable in it, whatever it
inherits. -/
theorem get?_variables (there : e.jobParameters.get? name = some q) :
    ((c.invocation e).variables inherited).get? (variableName name)
      = (exported? e.jobParameters name).map fun x => x.2.value.text := by
  obtain ⟨x, last, _⟩ := exported?_of_get? there
  unfold Invocation.variables
  rw [KeyMap.get?_ofList_append, show (c.invocation e).settings = settings e.jobParameters from rfl,
    get?_settings, last]
  rfl

/-- The process that is started for an execution, and no other one, decides what becomes of
it, and finds every parameter in the variable for its name exactly if all parameters that
share a variable have the same text. -/
theorem parameters_seen_iff :
    (∀ {W : Type} (spawn : Spawner W) (r : Repository W),
      (c.perform spawn e r).2.2 = ⟨r.records, (spawn (c.invocation e) r.world).2⟩ ∧
        ∀ spawn', spawn' (c.invocation e) r.world = spawn (c.invocation e) r.world →
          c.perform spawn' e r = c.perform spawn e r) ∧
    ((∀ name q, e.jobParameters.get? name = some q →
        ((c.invocation e).variables inherited).get? (variableName name) = some q.value.text) ↔
      ∀ name other q q', e.jobParameters.get? name = some q →
        e.jobParameters.get? other = some q' → variableName name = variableName other →
          q.value.text = q'.value.text) := by
  refine ⟨fun spawn r => ⟨c.perform_repository spawn e r, fun _ same => perform_congr same⟩, ?_⟩
  constructor
  · intro seen name other q q' there there' alike
    have found := seen name q there
    rw [alike, seen other q' there'] at found
    exact (Option.some.inj found).symm
  · intro same name q there
    obtain ⟨x, last, listed, alike⟩ := exported?_of_get? there
    rw [get?_variables c e inherited there, last, Option.map_some,
      same name x.1 q x.2 there listed alike.symm]

/-- Two numbers of a run, under names that differ in a character that variables lack. -/
def twoRuns : Parameters :=
  KeyMap.ofList [("run.id", ⟨.long 7, true⟩), ("run_id", ⟨.long 8, true⟩)]

/-- Not every parameter is seen, also where all can be handed over: the number 7 is hidden. -/
theorem parameter_hidden :
    ¬ ∀ (c : CommandJob) (e : JobExecution) (inherited : List (String × String)),
      (∀ x ∈ e.jobParameters.entries,
        '\x00' ∉ x.1.toList ∧ '\x00' ∉ x.2.value.text.toList) →
      ∀ name q, e.jobParameters.get? name = some q →
        ((c.invocation e).variables inherited).get? (variableName name)
          = some q.value.text := by
  intro seen
  have plain : ∀ x ∈ twoRuns.entries,
      '\x00' ∉ x.1.toList ∧ '\x00' ∉ x.2.value.text.toList := by decide
  have there : twoRuns.get? "run.id" = some ⟨.long 7, true⟩ := by decide
  have found := seen ⟨"child", "sh", [], true, .empty⟩
    (.create 2 ⟨1, "child", ""⟩ twoRuns .epoch) [] plain "run.id" _ there
  rw [get?_variables _ _ _ there] at found
  exact absurd found (by decide)

end CommandJob

end NestedBatch
