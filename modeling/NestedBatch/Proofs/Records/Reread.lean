import NestedBatch.Proofs.Execution.Reread
import NestedBatch.Records.Json

/-! What comes back of records that were stored, whatever they hold: all of them, or
nothing at all. -/
namespace NestedBatch

open Json

def JobInstance.reread (i : JobInstance) : Option JobInstance :=
  (word? i.id).map fun id => { i with id }

theorem JobInstance.ofJson?_toJson (i : JobInstance) : ofJson? i.toJson = i.reread := by
  have record := record?_object ["id", "job_name", "job_key"]
    [("id", .ofNat i.id), ("job_name", .string i.jobName),
      ("job_key", .string i.jobKey)] rfl (by decide)
  simp [ofJson?, toJson, record, Record.required, Record.find?, lookupKey, asText,
    asNat_ofNat_eq, reread, Option.map_eq_bind]

theorem JobInstance.reread_of_word {i : JobInstance} (word : IsWord i.id) : i.reread = some i := by
  rw [reread, word?_eq_some.2 ⟨word, rfl⟩, Option.map_some]

theorem JobInstance.isSome_reread {i : JobInstance} : i.reread.isSome = true ↔ IsWord i.id := by
  simp [reread, word?, IsWord]

theorem JobInstance.fits_of_reread {i j : JobInstance} (read : i.reread = some j) :
    IsWord j.id := by
  obtain ⟨id, word, rfl⟩ := Option.map_eq_some_iff.1 read
  obtain ⟨fits, rfl⟩ := word?_eq_some.1 word
  exact fits

namespace Records

variable {r r' : Records}

theorem sound_toJson (r : Records) : Sound 11 r.toJson := by
  have instances : SoundItems 9 (r.instances.map JobInstance.toJson) :=
    soundItems_map fun i _ => i.sound_toJson.mono (by decide)
  have executions : SoundItems 9 (r.executions.map JobExecution.toJson) :=
    soundItems_map fun e _ => e.sound_toJson
  have steps : SoundItems 9 (r.steps.map StepExecution.toJson) :=
    soundItems_map fun s _ => s.sound_toJson.mono (by decide)
  unfold toJson
  simp [Sound, SoundFields, sound_ofNat, instances, executions, steps]

def reread (r : Records) : Option Records := do
  let nextId ← word? r.nextId
  let instances ← r.instances.mapM JobInstance.reread
  let executions ← r.executions.mapM JobExecution.reread
  let steps ← r.steps.mapM StepExecution.reread
  some ⟨nextId, instances, executions, steps⟩

/-- Are all numbers in the records words? -/
structure Fits (r : Records) : Prop where
  nextId : IsWord r.nextId
  instances : ∀ i ∈ r.instances, IsWord i.id
  executions : ∀ e ∈ r.executions, e.Fits
  steps : ∀ s ∈ r.steps, s.Fits

/-- Is every double in the records finite? -/
structure AllFinite (r : Records) : Prop where
  executions : ∀ e ∈ r.executions, e.AllFinite
  steps : ∀ s ∈ r.steps, s.AllFinite

theorem ofText?_text (r : Records) : ofText? r.text = r.reread := by
  have read : Json.read r.text = some r.toJson :=
    read_prettyText (r.sound_toJson.mono (by decide))
  rw [ofText?, read, Option.bind_some]
  unfold ofJson? toJson reread
  refine bind_of_some (record?_object _ _ rfl (by decide)) ?_
  refine bind_congr_left (Record.required_of rfl (asNat_ofNat_eq r.nextId)) fun nextId => ?_
  refine bind_congr_left
    (Record.required_of rfl (asList_toJson JobInstance.ofJson?_toJson r.instances))
    fun instances => ?_
  refine bind_congr_left
    (Record.required_of rfl (asList_toJson JobExecution.ofJson?_toJson r.executions))
    fun executions => ?_
  exact bind_congr_left
    (Record.required_of rfl (asList_toJson StepExecution.ofJson?_toJson r.steps)) fun steps => rfl

theorem reread_eq_some :
    r.reread = some r' ↔ IsWord r.nextId ∧ r'.nextId = r.nextId ∧
      r.instances.mapM JobInstance.reread = some r'.instances ∧
      r.executions.mapM JobExecution.reread = some r'.executions ∧
      r.steps.mapM StepExecution.reread = some r'.steps := by
  obtain ⟨nextId, instances, executions, steps⟩ := r'
  simp only [reread, Option.bind_eq_bind, Option.bind_eq_some_iff, word?_eq_some,
    Option.some.injEq, mk.injEq]
  constructor
  · rintro ⟨_, ⟨word, rfl⟩, _, i, _, e, _, s, rfl, rfl, rfl, rfl⟩
    exact ⟨word, rfl, i, e, s⟩
  · rintro ⟨word, rfl, i, e, s⟩
    exact ⟨_, ⟨word, rfl⟩, _, i, _, e, _, s, rfl, rfl, rfl, rfl⟩

/-- Records are read back exactly if all numbers are words and all doubles finite. -/
theorem isSome_reread : r.reread.isSome = true ↔ r.Fits ∧ r.AllFinite := by
  constructor
  · intro read
    obtain ⟨r', read⟩ := Option.isSome_iff_exists.1 read
    obtain ⟨word, _, instances, executions, steps⟩ := reread_eq_some.1 read
    have owners := isSome_mapM.1 (Option.isSome_iff_exists.2 ⟨_, instances⟩)
    have runs := isSome_mapM.1 (Option.isSome_iff_exists.2 ⟨_, executions⟩)
    have parts := isSome_mapM.1 (Option.isSome_iff_exists.2 ⟨_, steps⟩)
    constructor
    · constructor
      · exact word
      · exact fun i there => JobInstance.isSome_reread.1 (owners i there)
      · exact fun e there => (JobExecution.isSome_reread.1 (runs e there)).1
      · exact fun s there => (StepExecution.isSome_reread.1 (parts s there)).1
    · constructor
      · exact fun e there => (JobExecution.isSome_reread.1 (runs e there)).2
      · exact fun s there => (StepExecution.isSome_reread.1 (parts s there)).2
  · rintro ⟨fits, finite⟩
    obtain ⟨i, instances⟩ := Option.isSome_iff_exists.1 (isSome_mapM.2 fun i there =>
      JobInstance.isSome_reread.2 (fits.instances i there))
    obtain ⟨e, executions⟩ := Option.isSome_iff_exists.1 (isSome_mapM.2 fun e there =>
      JobExecution.isSome_reread.2 ⟨fits.executions e there, finite.executions e there⟩)
    obtain ⟨s, steps⟩ := Option.isSome_iff_exists.1 (isSome_mapM.2 fun s there =>
      StepExecution.isSome_reread.2 ⟨fits.steps s there, finite.steps s there⟩)
    refine Option.isSome_iff_exists.2 ⟨⟨r.nextId, i, e, s⟩, ?_⟩
    exact reread_eq_some.2 ⟨fits.nextId, rfl, instances, executions, steps⟩

/-- What was read once is read again. -/
theorem sound_of_reread (read : r.reread = some r') : r'.Fits ∧ r'.AllFinite := by
  obtain ⟨word, count, instances, executions, steps⟩ := reread_eq_some.1 read
  have runs : ∀ e ∈ r'.executions, e.Fits ∧ e.AllFinite := by
    intro e there
    obtain ⟨x, _, back⟩ := mem_of_mapM executions there
    exact (JobExecution.sound_of_reread back).2
  have parts : ∀ s ∈ r'.steps, s.Fits ∧ s.AllFinite := by
    intro s there
    obtain ⟨x, _, back⟩ := mem_of_mapM steps there
    exact (StepExecution.sound_of_reread back).2
  constructor
  · constructor
    · rwa [count]
    · intro i there
      obtain ⟨x, _, back⟩ := mem_of_mapM instances there
      exact JobInstance.fits_of_reread back
    · exact fun e there => (runs e there).1
    · exact fun s there => (parts s there).1
  · exact ⟨fun e there => (runs e there).2, fun s there => (parts s there).2⟩

end Records

end NestedBatch
