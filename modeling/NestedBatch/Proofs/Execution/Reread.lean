import NestedBatch.Execution.Json
import NestedBatch.Json.Printer
import NestedBatch.Proofs.Json.Double
import NestedBatch.Proofs.Json.Record
import NestedBatch.Proofs.Parameter.Identity

/-! What comes back of executions that were written, whatever they hold. A number that is
no word and a double that is not finite make the whole text unreadable; all else is read,
a time with a leap second within a minute as the second after. -/
namespace NestedBatch

open Json

section Lists

variable {α β : Type} {f : α → Option β} {l : List α}

theorem mapM_some_iff {l' : List β} :
    l.mapM f = some l' ↔ List.Forall₂ (fun a b => f a = some b) l l' := by
  induction l generalizing l' with
  | nil => simp [eq_comm]
  | cons a rest ih =>
    simp only [List.mapM_cons, Option.pure_def, Option.bind_eq_bind, Option.bind_eq_some_iff,
      Option.some.injEq, ih]
    constructor
    · rintro ⟨b, first, bs, later, rfl⟩
      exact .cons first later
    · intro both
      cases both with
      | cons first later => exact ⟨_, first, _, later, rfl⟩

theorem isSome_mapM : (l.mapM f).isSome = true ↔ ∀ a ∈ l, (f a).isSome = true := by
  induction l with
  | nil => simp
  | cons a rest ih =>
    rw [List.mapM_cons, List.forall_mem_cons, ← ih]
    cases f a with
    | none => simp
    | some b => cases rest.mapM f <;> simp

/-- Every item that came out of a list has come from an item of the list. -/
theorem mem_of_mapM {l' : List β} (read : l.mapM f = some l') {b : β} (there : b ∈ l') :
    ∃ a ∈ l, f a = some b := by
  obtain ⟨i, inside, rfl⟩ := List.mem_iff_getElem.1 there
  have both := mapM_some_iff.1 read
  have inside' : i < l.length := both.length_eq ▸ inside
  exact ⟨l[i], List.getElem_mem inside', both.get inside' inside⟩

end Lists

section Values

theorem sound_ofDouble (d : Double) (n : Nat) : Sound n (ofDouble d) := by
  cases d with
  | finite negative g => exact wellFormed_write negative g
  | infinite _ | nan => trivial

theorem sound_ofNat (k n : Nat) : Sound n (Json.ofNat k) := wellFormed_ofInt k

theorem sound_ofInt (k : Int) (n : Nat) : Sound n (Json.ofInt k) := wellFormed_ofInt k

theorem sound_ofOption {α : Type} {f : α → Json} {n : Nat} (sound : ∀ a, Sound n (f a)) :
    ∀ a, Sound n (ofOption f a)
  | none => trivial
  | some a => sound a

theorem sound_ofMap {α : Type} {f : α → Json} {n : Nat} (sound : ∀ a, Sound n (f a))
    (m : KeyMap String α) : Sound (n + 1) (ofMap f m) :=
  ⟨Nat.succ_pos n, soundFields_map fun p _ => sound p.2⟩

/-- A number that is written and read: none comes back that is no word. -/
def word? (n : Nat) : Option Nat := if n < 18446744073709551616 then some n else none

theorem word?_eq_some {n m : Nat} : word? n = some m ↔ IsWord n ∧ m = n := by
  simp only [word?, Option.ite_none_right_eq_some, Option.some.injEq, IsWord, eq_comm]

theorem asNat_ofNat_eq (n : Nat) : asNat (.ofNat n) = word? n := by
  by_cases word : IsWord n
  · exact (asNat_ofNat word).trans (if_pos word).symm
  · have large : ¬ n ≤ digitLimit := fun small => word (Nat.lt_succ_of_le small)
    have none : integer? (.ofInt n) = none := by
      have sign : ¬ ((n : Int) < 0) := by omega
      simp [integer?, Written.ofInt, sign, large]
    refine Eq.trans ?_ (if_neg word).symm
    change (integer? (.ofInt n)).bind _ = Option.none
    rw [none, Option.bind_none]

/-- A double that is written and read. It comes back changed at times. -/
def Double.reread (d : Double) : Option Double := asDouble (ofDouble d)

theorem Double.isSome_reread (d : Double) : d.reread.isSome = d.isFinite := by
  cases d with
  | finite negative g => exact double?_write negative g
  | infinite _ | nan => rfl

theorem Double.isFinite_of_reread {d x : Double} (read : d.reread = some x) :
    x.isFinite = true := by
  cases d with
  | finite negative g => exact isFinite_double? read
  | infinite _ | nan => cases read

/-- All values of a map that are written and read, if each of them comes back. -/
def KeyMap.reread {α β : Type} (f : α → Option β) (m : KeyMap String α) :
    Option (KeyMap String β) :=
  (m.entries.mapM fun e => (f e.2).map (e.1, ·)).map .ofList

theorem KeyMap.mem_ofList {α : Type} {l : List (String × α)} {e : String × α}
    (there : e ∈ (KeyMap.ofList l).entries) : e ∈ l := by
  have grown : ∀ (l : List (String × α)) (m : KeyMap String α),
      e ∈ (l.foldl (fun m p => m.insert p.1 p.2) m).entries → e ∈ m.entries ∨ e ∈ l := by
    intro l
    induction l with
    | nil => exact fun m there => Or.inl there
    | cons p rest ih =>
      intro m there
      rcases ih _ there with early | late
      · rcases mem_insertSorted early with rfl | old
        · exact Or.inr List.mem_cons_self
        · exact Or.inl old
      · exact Or.inr (List.mem_cons_of_mem p late)
  exact (grown l .empty there).resolve_left List.not_mem_nil

theorem KeyMap.isSome_reread {α β : Type} {f : α → Option β} {m : KeyMap String α} :
    (m.reread f).isSome = true ↔ ∀ e ∈ m.entries, (f e.2).isSome = true := by
  simp only [reread, Option.isSome_map, isSome_mapM]

theorem KeyMap.mem_of_reread {α β : Type} {f : α → Option β} {m : KeyMap String α}
    {m' : KeyMap String β} (read : m.reread f = some m') {e : String × β}
    (there : e ∈ m'.entries) : ∃ x ∈ m.entries, f x.2 = some e.2 := by
  obtain ⟨l, all, rfl⟩ := Option.map_eq_some_iff.1 read
  obtain ⟨x, listed, back⟩ := mem_of_mapM all (mem_ofList there)
  obtain ⟨value, same, rfl⟩ := Option.map_eq_some_iff.1 back
  exact ⟨x, listed, same⟩

theorem asMap_ofMap {α β : Type} {f : α → Json} {read : Json → Option β}
    {back : α → Option β} (same : ∀ a, read (f a) = back a) (m : KeyMap String α) :
    asMap read (ofMap f m) = m.reread back := by
  simp only [asMap, ofMap, KeyMap.reread, List.mapM_map, Function.comp_def, same]

def ParameterValue.reread : ParameterValue → Option ParameterValue
  | .double d => d.reread.map .double
  | .date t => some (.date t.settled)
  | v => some v

theorem ParameterValue.ofJson?_toJson (held : Bool) (v : ParameterValue) :
    ofJson? held v.toJson = v.reread := by
  simp only [ofJson?, toJson, tagged?_tagged, Option.bind_some]
  cases v with
  | string s => simp [ofTagged?, type, ParameterType.name, asText, reread]
  | long n => simp [ofTagged?, type, ParameterType.name, asLong_ofInt, reread]
  | double d => simp [ofTagged?, type, ParameterType.name, reread, Double.reread]
  | date t => simp [ofTagged?, type, ParameterType.name, asInstant_ofInstant, reread]

theorem ParameterValue.isSome_reread {v : ParameterValue} :
    v.reread.isSome = true ↔ v.IsFinite := by
  cases v <;> simp [reread, IsFinite, Double.isSome_reread]

theorem ParameterValue.isFinite_of_reread {v x : ParameterValue} (read : v.reread = some x) :
    x.IsFinite := by
  cases v with
  | double d =>
    obtain ⟨y, back, rfl⟩ := Option.map_eq_some_iff.1 read
    exact Double.isFinite_of_reread back
  | string _ | long _ | date _ =>
    cases read
    exact trivial

def Parameter.reread (p : Parameter) : Option Parameter :=
  p.value.reread.map fun value => ⟨value, p.identifying⟩

theorem Parameter.ofJson?_toJson (held : Bool) (p : Parameter) :
    ofJson? held p.toJson = p.reread := by
  have record := record?_object ["value", "identifying"]
    [("value", p.value.toJson), ("identifying", .bool p.identifying)] rfl (by decide)
  simp [ofJson?, toJson, record, Record.required, Record.withDefault, Record.find?, lookupKey,
    ParameterValue.ofJson?_toJson, asBool, reread, Option.map_eq_bind]

def Parameters.reread (p : Parameters) : Option Parameters := KeyMap.reread Parameter.reread p

theorem Parameters.ofJson?_toJson (held : Bool) (p : Parameters) :
    ofJson? held p.toJson = p.reread :=
  asMap_ofMap (Parameter.ofJson?_toJson held) p

/-- Is every double among the parameters finite? -/
def Parameters.AllFinite (p : Parameters) : Prop := ∀ e ∈ p.entries, e.2.value.IsFinite

theorem Parameters.isSome_reread {p : Parameters} : p.reread.isSome = true ↔ p.AllFinite := by
  simp only [reread, KeyMap.isSome_reread, Parameter.reread, Option.isSome_map,
    ParameterValue.isSome_reread, AllFinite]

theorem Parameters.allFinite_of_reread {p q : Parameters} (read : p.reread = some q) :
    q.AllFinite := by
  intro e there
  obtain ⟨x, _, back⟩ := KeyMap.mem_of_reread read there
  obtain ⟨value, same, named⟩ := Option.map_eq_some_iff.1 back
  rw [← named]
  exact ParameterValue.isFinite_of_reread same

def ContextValue.reread : ContextValue → Option ContextValue
  | .double d => d.reread.map .double
  | .parameters p => p.reread.map .parameters
  | .date t => some (.date t.settled)
  | v => some v

theorem ContextValue.ofJson?_toJson (v : ContextValue) : ofJson? v.toJson = v.reread := by
  simp only [ofJson?, toJson, tagged?_tagged, Option.bind_some]
  cases v with
  | string s => simp [ofTagged?, typeName, asText, reread]
  | long n => simp [ofTagged?, typeName, asLong_ofInt, reread]
  | double d => simp [ofTagged?, typeName, reread, Double.reread]
  | date t => simp [ofTagged?, typeName, asInstant_ofInstant, reread]
  | bool b => simp [ofTagged?, typeName, asBool, reread]
  | parameters p => simp [ofTagged?, typeName, Parameters.ofJson?_toJson, reread]

def ContextValue.AllFinite : ContextValue → Prop
  | .double d => d.isFinite = true
  | .parameters p => p.AllFinite
  | _ => True

theorem ContextValue.isSome_reread {v : ContextValue} :
    v.reread.isSome = true ↔ v.AllFinite := by
  cases v <;> simp [reread, AllFinite, Double.isSome_reread, Parameters.isSome_reread]

theorem ContextValue.allFinite_of_reread {v x : ContextValue} (read : v.reread = some x) :
    x.AllFinite := by
  cases v with
  | double d =>
    obtain ⟨y, back, rfl⟩ := Option.map_eq_some_iff.1 read
    exact Double.isFinite_of_reread back
  | parameters p =>
    obtain ⟨q, back, rfl⟩ := Option.map_eq_some_iff.1 read
    exact Parameters.allFinite_of_reread back
  | string _ | long _ | date _ | bool _ =>
    cases read
    exact trivial

def Context.reread (c : Context) : Option Context :=
  (c.entries.reread ContextValue.reread).map fun entries => ⟨entries, false⟩

theorem Context.ofJson?_toJson (c : Context) : ofJson? c.toJson = c.reread := by
  have record := record?_object ["entries"]
    [("entries", .ofMap ContextValue.toJson c.entries)] rfl (by decide)
  simp [ofJson?, toJson, record, Record.required, Record.find?, lookupKey,
    asMap_ofMap ContextValue.ofJson?_toJson, reread, Option.map_eq_bind]

/-- Is every double in the context finite, also in parameters that it keeps? -/
def Context.AllFinite (c : Context) : Prop := ∀ e ∈ c.entries.entries, e.2.AllFinite

theorem Context.isSome_reread {c : Context} : c.reread.isSome = true ↔ c.AllFinite := by
  simp only [reread, Option.isSome_map, KeyMap.isSome_reread, ContextValue.isSome_reread,
    AllFinite]

theorem Context.allFinite_of_reread {c d : Context} (read : c.reread = some d) :
    d.AllFinite := by
  obtain ⟨entries, back, rfl⟩ := Option.map_eq_some_iff.1 read
  intro e there
  obtain ⟨x, _, same⟩ := KeyMap.mem_of_reread back there
  exact ContextValue.allFinite_of_reread same

theorem ParameterValue.sound_toJson (v : ParameterValue) : Sound 1 v.toJson := by
  cases v <;>
    simp [toJson, tagged, Sound, SoundFields, sound_ofInt, sound_ofDouble, ofInstant]

theorem Parameter.sound_toJson (p : Parameter) : Sound 2 p.toJson := by
  simp [toJson, Sound, SoundFields, p.value.sound_toJson]

theorem Parameters.sound_toJson (p : Parameters) : Sound 3 p.toJson :=
  sound_ofMap Parameter.sound_toJson p

theorem ContextValue.sound_toJson (v : ContextValue) : Sound 4 v.toJson := by
  cases v <;>
    simp [toJson, tagged, Sound, SoundFields, sound_ofInt, sound_ofDouble, ofInstant,
      Parameters.sound_toJson]

theorem Context.sound_toJson (c : Context) : Sound 6 c.toJson := by
  simp [toJson, Sound, SoundFields, sound_ofMap ContextValue.sound_toJson c.entries]

end Values

section Parts

theorem Status.ofJson?_toJson (s : Status) : ofJson? s.toJson = some s :=
  Status.ofName?_name s

theorem FailureKind.ofJson?_name (k : FailureKind) : ofJson? (.string k.name) = some k := by
  cases k <;> decide

theorem ExitStatus.ofJson?_toJson (e : ExitStatus) : ofJson? e.toJson = some e := by
  unfold ofJson? toJson
  refine bind_of_some (record?_object _ _ rfl (by decide)) ?_
  refine bind_of_some (a := e.code) (Record.required_of rfl rfl) ?_
  refine bind_of_some (a := e.description) (Record.withDefault_of rfl rfl) ?_
  rfl

/-- A failure with its time as it is told. -/
def FailureCause.settled (f : FailureCause) : FailureCause :=
  { f with occurredAt := f.occurredAt.settled }

theorem FailureCause.ofJson?_toJson (f : FailureCause) : ofJson? f.toJson = some f.settled := by
  have record := record?_object ["kind", "message", "occurred_at"]
    [("kind", .string f.kind.name), ("message", .string f.message),
      ("occurred_at", .ofInstant f.occurredAt)] rfl (by decide)
  simp [ofJson?, toJson, record, Record.required, Record.find?, lookupKey, asText,
    FailureKind.ofJson?_name, asInstant_ofInstant, settled]

theorem ofJson?_failures (failures : List FailureCause) :
    asList FailureCause.ofJson? (.array (failures.map FailureCause.toJson))
      = some (failures.map FailureCause.settled) :=
  asList_map fun f _ => FailureCause.ofJson?_toJson f

theorem ExitStatus.sound_toJson (e : ExitStatus) : Sound 1 e.toJson := by
  simp [toJson, Sound, SoundFields]

theorem FailureCause.sound_toJson (f : FailureCause) : Sound 1 f.toJson := by
  simp [toJson, Sound, SoundFields, ofInstant]

theorem JobInstance.sound_toJson (i : JobInstance) : Sound 1 i.toJson := by
  simp [toJson, Sound, SoundFields, sound_ofNat]

end Parts

theorem of_bind {α β : Type} {x : Option α} {f : α → Option β} {b : β}
    (read : (x >>= f) = some b) : ∃ a, x = some a ∧ f a = some b :=
  Option.bind_eq_some_iff.1 read

theorem bind_congr_left {α β : Type} {x y : Option α} {f g : α → Option β} (same : x = y)
    (rest : ∀ a, f a = g a) : (x >>= f) = (y >>= g) := by
  rw [same, funext rest]

theorem asList_toJson {α β : Type} {f : α → Json} {read : Json → Option β} {back : α → Option β}
    (same : ∀ a, read (f a) = back a) (l : List α) :
    asList read (.array (l.map f)) = l.mapM back := by
  simp only [asList, List.mapM_map, Function.comp_def, same]

/-- A step execution with its times as they are told. -/
def StepExecution.settled (s : StepExecution) : StepExecution :=
  { s with
    failures := s.failures.map FailureCause.settled
    startTime := s.startTime.map Instant.settled
    endTime := s.endTime.map Instant.settled
    lastUpdated := s.lastUpdated.settled }

def StepExecution.reread (s : StepExecution) : Option StepExecution := do
  let id ← word? s.id
  let jobExecutionId ← word? s.jobExecutionId
  let jobInstanceId ← word? s.jobInstanceId
  let jobParameters ← s.jobParameters.reread
  let context ← s.context.reread
  some { s.settled with id, jobExecutionId, jobInstanceId, jobParameters, context }

theorem StepExecution.ofJson?_toJson (s : StepExecution) : ofJson? s.toJson = s.reread := by
  unfold ofJson? toJson reread
  refine bind_of_some (record?_object fieldNames _ rfl (by decide)) ?_
  refine bind_congr_left (Record.required_of rfl (asNat_ofNat_eq s.id)) fun id => ?_
  refine bind_of_some (a := s.stepName) (Record.required_of rfl rfl) ?_
  refine bind_congr_left (Record.required_of rfl (asNat_ofNat_eq _)) fun jobExecutionId => ?_
  refine bind_congr_left (Record.required_of rfl (asNat_ofNat_eq _)) fun jobInstanceId => ?_
  refine bind_of_some (a := s.jobName) (Record.required_of rfl rfl) ?_
  refine bind_congr_left
    (Record.required_of rfl (s.jobParameters.ofJson?_toJson false)) fun jobParameters => ?_
  refine bind_of_some (Record.required_of rfl s.status.ofJson?_toJson) ?_
  refine bind_of_some (Record.required_of rfl s.exitStatus.ofJson?_toJson) ?_
  refine bind_congr_left (Record.withDefault_of rfl s.context.ofJson?_toJson) fun context => ?_
  refine bind_of_some (Record.withDefault_of rfl (ofJson?_failures s.failures)) ?_
  refine bind_of_some (Record.optional_of rfl) ?_
  refine bind_of_some (Record.optional_of rfl) ?_
  refine bind_of_some (Record.required_of rfl (asInstant_ofInstant s.lastUpdated)) ?_
  rfl

/-- A job execution with its own times as they are told. -/
def JobExecution.settled (e : JobExecution) : JobExecution :=
  { e with
    createTime := e.createTime.settled
    startTime := e.startTime.map Instant.settled
    endTime := e.endTime.map Instant.settled
    lastUpdated := e.lastUpdated.settled
    failures := e.failures.map FailureCause.settled }

def JobExecution.reread (e : JobExecution) : Option JobExecution := do
  let id ← word? e.id
  let jobInstanceId ← word? e.jobInstanceId
  let jobParameters ← e.jobParameters.reread
  let context ← e.context.reread
  let steps ← e.steps.mapM StepExecution.reread
  some { e.settled with id, jobInstanceId, jobParameters, context, steps }

theorem JobExecution.ofJson?_toJson (e : JobExecution) : ofJson? e.toJson = e.reread := by
  unfold ofJson? toJson reread
  refine bind_of_some (record?_object fieldNames _ rfl (by decide)) ?_
  refine bind_congr_left (Record.required_of rfl (asNat_ofNat_eq e.id)) fun id => ?_
  refine bind_congr_left (Record.required_of rfl (asNat_ofNat_eq _)) fun jobInstanceId => ?_
  refine bind_of_some (a := e.jobName) (Record.required_of rfl rfl) ?_
  refine bind_congr_left
    (Record.required_of rfl (e.jobParameters.ofJson?_toJson false)) fun jobParameters => ?_
  refine bind_of_some (Record.required_of rfl e.status.ofJson?_toJson) ?_
  refine bind_of_some (Record.required_of rfl e.exitStatus.ofJson?_toJson) ?_
  refine bind_of_some (Record.required_of rfl (asInstant_ofInstant e.createTime)) ?_
  refine bind_of_some (Record.optional_of rfl) ?_
  refine bind_of_some (Record.optional_of rfl) ?_
  refine bind_of_some (Record.required_of rfl (asInstant_ofInstant e.lastUpdated)) ?_
  refine bind_congr_left (Record.withDefault_of rfl e.context.ofJson?_toJson) fun context => ?_
  refine bind_congr_left (Record.withDefault_of rfl
    (asList_toJson StepExecution.ofJson?_toJson e.steps)) fun steps => ?_
  refine bind_of_some (Record.withDefault_of rfl (ofJson?_failures e.failures)) ?_
  rfl

/-- Are the numbers of a step execution words? -/
structure StepExecution.Fits (s : StepExecution) : Prop where
  id : IsWord s.id
  jobExecutionId : IsWord s.jobExecutionId
  jobInstanceId : IsWord s.jobInstanceId

/-- Is every double in a step execution finite? -/
structure StepExecution.AllFinite (s : StepExecution) : Prop where
  jobParameters : s.jobParameters.AllFinite
  context : s.context.AllFinite

/-- Are the numbers of a job execution words? -/
structure JobExecution.Fits (e : JobExecution) : Prop where
  id : IsWord e.id
  jobInstanceId : IsWord e.jobInstanceId
  steps : ∀ s ∈ e.steps, s.Fits

/-- Is every double in a job execution finite, also in the steps that it carries? -/
structure JobExecution.AllFinite (e : JobExecution) : Prop where
  jobParameters : e.jobParameters.AllFinite
  context : e.context.AllFinite
  steps : ∀ s ∈ e.steps, s.AllFinite

theorem StepExecution.reread_eq_some {s t : StepExecution} :
    s.reread = some t ↔ s.Fits ∧ ∃ jobParameters context,
      s.jobParameters.reread = some jobParameters ∧ s.context.reread = some context ∧
        t = { s.settled with jobParameters, context } := by
  constructor
  · intro read
    obtain ⟨_, id, read⟩ := of_bind read
    obtain ⟨_, execution, read⟩ := of_bind read
    obtain ⟨_, instance', read⟩ := of_bind read
    obtain ⟨p, parameters, read⟩ := of_bind read
    obtain ⟨c, context, read⟩ := of_bind read
    obtain ⟨idFits, rfl⟩ := word?_eq_some.1 id
    obtain ⟨executionFits, rfl⟩ := word?_eq_some.1 execution
    obtain ⟨instanceFits, rfl⟩ := word?_eq_some.1 instance'
    exact ⟨⟨idFits, executionFits, instanceFits⟩, p, c, parameters, context,
      (Option.some.inj read).symm⟩
  · rintro ⟨fits, p, c, parameters, context, rfl⟩
    rw [reread, word?_eq_some.2 ⟨fits.id, rfl⟩, word?_eq_some.2 ⟨fits.jobExecutionId, rfl⟩,
      word?_eq_some.2 ⟨fits.jobInstanceId, rfl⟩, parameters, context]
    rfl

theorem StepExecution.isSome_reread {s : StepExecution} :
    s.reread.isSome = true ↔ s.Fits ∧ s.AllFinite := by
  constructor
  · intro read
    obtain ⟨t, read⟩ := Option.isSome_iff_exists.1 read
    obtain ⟨fits, p, c, parameters, context, _⟩ := reread_eq_some.1 read
    exact ⟨fits, Parameters.isSome_reread.1 (Option.isSome_iff_exists.2 ⟨p, parameters⟩),
      Context.isSome_reread.1 (Option.isSome_iff_exists.2 ⟨c, context⟩)⟩
  · rintro ⟨fits, finite⟩
    obtain ⟨p, parameters⟩ :=
      Option.isSome_iff_exists.1 (Parameters.isSome_reread.2 finite.jobParameters)
    obtain ⟨c, context⟩ := Option.isSome_iff_exists.1 (Context.isSome_reread.2 finite.context)
    exact Option.isSome_iff_exists.2
      ⟨_, reread_eq_some.2 ⟨fits, p, c, parameters, context, rfl⟩⟩

theorem StepExecution.sound_of_reread {s t : StepExecution} (read : s.reread = some t) :
    t.id = s.id ∧ t.Fits ∧ t.AllFinite := by
  obtain ⟨fits, p, c, parameters, context, rfl⟩ := reread_eq_some.1 read
  exact ⟨rfl, ⟨fits.id, fits.jobExecutionId, fits.jobInstanceId⟩,
    Parameters.allFinite_of_reread parameters, Context.allFinite_of_reread context⟩

theorem JobExecution.reread_eq_some {e x : JobExecution} :
    e.reread = some x ↔ IsWord e.id ∧ IsWord e.jobInstanceId ∧ ∃ jobParameters context steps,
      e.jobParameters.reread = some jobParameters ∧ e.context.reread = some context ∧
        e.steps.mapM StepExecution.reread = some steps ∧
        x = { e.settled with jobParameters, context, steps } := by
  constructor
  · intro read
    obtain ⟨_, id, read⟩ := of_bind read
    obtain ⟨_, instance', read⟩ := of_bind read
    obtain ⟨p, parameters, read⟩ := of_bind read
    obtain ⟨c, context, read⟩ := of_bind read
    obtain ⟨l, steps, read⟩ := of_bind read
    obtain ⟨idFits, rfl⟩ := word?_eq_some.1 id
    obtain ⟨instanceFits, rfl⟩ := word?_eq_some.1 instance'
    exact ⟨idFits, instanceFits, p, c, l, parameters, context, steps, (Option.some.inj read).symm⟩
  · rintro ⟨id, instance', p, c, l, parameters, context, steps, rfl⟩
    rw [reread, word?_eq_some.2 ⟨id, rfl⟩, word?_eq_some.2 ⟨instance', rfl⟩, parameters, context,
      steps]
    rfl

theorem JobExecution.isSome_reread {e : JobExecution} :
    e.reread.isSome = true ↔ e.Fits ∧ e.AllFinite := by
  constructor
  · intro read
    obtain ⟨x, read⟩ := Option.isSome_iff_exists.1 read
    obtain ⟨id, owner, p, c, l, parameters, context, steps, _⟩ := reread_eq_some.1 read
    have each : ∀ s ∈ e.steps, s.Fits ∧ s.AllFinite := by
      intro s there
      have all := isSome_mapM.1 (Option.isSome_iff_exists.2 ⟨l, steps⟩)
      exact StepExecution.isSome_reread.1 (all s there)
    constructor
    · exact ⟨id, owner, fun s there => (each s there).1⟩
    · exact ⟨Parameters.isSome_reread.1 (Option.isSome_iff_exists.2 ⟨p, parameters⟩),
        Context.isSome_reread.1 (Option.isSome_iff_exists.2 ⟨c, context⟩),
        fun s there => (each s there).2⟩
  · rintro ⟨fits, finite⟩
    obtain ⟨p, parameters⟩ :=
      Option.isSome_iff_exists.1 (Parameters.isSome_reread.2 finite.jobParameters)
    obtain ⟨c, context⟩ := Option.isSome_iff_exists.1 (Context.isSome_reread.2 finite.context)
    obtain ⟨l, steps⟩ := Option.isSome_iff_exists.1 (isSome_mapM.2 fun s there =>
      StepExecution.isSome_reread.2 ⟨fits.steps s there, finite.steps s there⟩)
    exact Option.isSome_iff_exists.2 ⟨_, reread_eq_some.2
      ⟨fits.id, fits.jobInstanceId, p, c, l, parameters, context, steps, rfl⟩⟩

theorem JobExecution.sound_of_reread {e x : JobExecution} (read : e.reread = some x) :
    x.id = e.id ∧ x.Fits ∧ x.AllFinite := by
  obtain ⟨id, owner, p, c, l, parameters, context, steps, rfl⟩ := reread_eq_some.1 read
  have each : ∀ t ∈ l, t.Fits ∧ t.AllFinite := by
    intro t there
    obtain ⟨s, _, back⟩ := mem_of_mapM steps there
    exact (StepExecution.sound_of_reread back).2
  exact ⟨rfl, ⟨id, owner, fun t there => (each t there).1⟩,
    Parameters.allFinite_of_reread parameters, Context.allFinite_of_reread context,
    fun t there => (each t there).2⟩

theorem sound_instant (t : Instant) (n : Nat) : Sound n (ofInstant t) := trivial

theorem sound_time (t : Option Instant) (n : Nat) : Sound n (ofOption ofInstant t) :=
  sound_ofOption (fun t => sound_instant t n) t

theorem StepExecution.sound_toJson (s : StepExecution) : Sound 7 s.toJson := by
  have parameters : Sound 6 s.jobParameters.toJson := s.jobParameters.sound_toJson.mono (by decide)
  have exitStatus : Sound 6 s.exitStatus.toJson := s.exitStatus.sound_toJson.mono (by decide)
  have failures : SoundItems 5 (s.failures.map FailureCause.toJson) :=
    soundItems_map fun f _ => f.sound_toJson.mono (by decide)
  unfold toJson
  simp [Sound, SoundFields, sound_ofNat, sound_time, sound_instant, Status.toJson,
    s.context.sound_toJson, parameters, exitStatus, failures]

theorem JobExecution.sound_toJson (e : JobExecution) : Sound 9 e.toJson := by
  have parameters : Sound 8 e.jobParameters.toJson := e.jobParameters.sound_toJson.mono (by decide)
  have exitStatus : Sound 8 e.exitStatus.toJson := e.exitStatus.sound_toJson.mono (by decide)
  have context : Sound 8 e.context.toJson := e.context.sound_toJson.mono (by decide)
  have steps : SoundItems 7 (e.steps.map StepExecution.toJson) :=
    soundItems_map fun s _ => s.sound_toJson
  have failures : SoundItems 7 (e.failures.map FailureCause.toJson) :=
    soundItems_map fun f _ => f.sound_toJson.mono (by decide)
  unfold toJson
  simp [Sound, SoundFields, sound_ofNat, sound_time, sound_instant, Status.toJson, context,
    parameters, exitStatus, steps, failures]

end NestedBatch
