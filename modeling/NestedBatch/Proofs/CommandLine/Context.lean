import NestedBatch.Proofs.CommandLine.Refusal
import NestedBatch.Proofs.Context.Inference
import NestedBatch.Proofs.Records.Reread
import NestedBatch.Proofs.Step.Extraction

/-! The way of a text from an entry of the context to the process of the child. It is taken
for a number or a truth value on the way, and yet comes out as it was given. Only the mark
that a nested step leaves in its context, and the context of an attempt that did not
complete, stand before it. -/
namespace NestedBatch

namespace KeySpec

variable {keys : List String} {name : String}

/-- Do the keys hand a name over as its text: is one for it, of no type or that of texts, and
is none of another type after it? -/
def AsText (keys : List String) (name : String) : Prop :=
  ∃ before key after, keys = before ++ key :: after ∧ (ofText key).name = name ∧
    (ofText key).IsTextual ∧ ∀ later ∈ after, (ofText later).name = name → (ofText later).IsTextual

theorem lastFor_of_asText (named : AsText keys name) :
    ∃ spec, lastFor keys name = some spec ∧ spec.IsTextual := by
  obtain ⟨before, key, after, rfl, here, textual, later⟩ := named
  rw [lastFor_append, lastFor_cons, if_pos here]
  cases found : lastFor after name with
  | none => exact ⟨ofText key, rfl, textual⟩
  | some spec =>
    obtain ⟨there, alike⟩ := mem_of_lastFor found
    obtain ⟨key', member, rfl⟩ := List.mem_map.1 there
    exact ⟨ofText key', rfl, later key' member alike⟩

end KeySpec

theorem Records.findOrMakeInstance_steps {r made : Records} {job : String} {p : Parameters}
    {i : JobInstance} (found : r.findOrMakeInstance job p = .ok (i, made)) :
    i.id = r.instanceIdOf job p ∧ made.steps = r.steps := by
  rcases Records.findOrMakeInstance_ok found with ⟨there, rfl, _⟩ | ⟨absent, rfl, rfl⟩
  · exact ⟨(Records.instanceIdOf_some there).symm, rfl⟩
  · simp only [Records.instanceIdOf, absent, and_self]

/-- The parameters hand a text over under a name: it tells instances apart, and a process
gets it in the variable for the name, if that variable is for no other name as well. -/
structure Parameters.HandsOver (q : Parameters) (name text : String) : Prop where
  parameter : ∃ value, q.get? name = some ⟨value, true⟩ ∧ value.text = text
  exported : (∀ e ∈ q.entries, CommandJob.variableName e.1 = CommandJob.variableName name →
    e.1 = name) → (CommandJob.variableName name, text) ∈ CommandJob.settings q

theorem Parameters.handsOver_of_get? {q : Parameters} {name : String} {value : ParameterValue}
    (there : q.get? name = some ⟨value, true⟩) : q.HandsOver name value.text := by
  refine ⟨⟨value, there, rfl⟩, fun single => mem_of_lookupKey (KeyMap.get?_ofList_of_alike ?_ ?_)⟩
  · exact List.mem_map.2 ⟨_, mem_of_lookupKey there, rfl⟩
  · intro e he alike
    obtain ⟨x, member, rfl⟩ := List.mem_map.1 he
    have found : q.get? x.1 = some x.2 := lookupKey_of_mem q.sorted member
    rw [single x member alike, there] at found
    rw [← Option.some.inj found]

namespace CommandLine

/-- An entry as it is given: a key, and the text after the first sign of equality. -/
def entryText (given : String) : Option (String × String) :=
  (Text.cutFirst '=' given.toList).map fun p =>
    (String.ofList (Text.trimBlanks p.1), String.ofList p.2)

/-- The text that the last entry for a key gives it. -/
def givenText? (entries : List String) (key : String) : Option String :=
  ((entries.filterMap entryText).filter fun e => e.1 = key).getLast?.map Prod.snd

variable {entries : List String} {c d : Context} {key text : String}

theorem contextEntry_eq (given : String) :
    contextEntry given = (entryText given).map fun e => (e.1, .infer e.2) := by
  unfold contextEntry entryText
  rw [Option.map_map]
  rfl

theorem givenText?_cons {given : String} {e : String × String} (cut : entryText given = some e)
    (rest : List String) (key : String) :
    givenText? (given :: rest) key
      = (givenText? rest key).or (if e.1 = key then some e.2 else none) := by
  unfold givenText?
  rw [List.filterMap_cons_some cut, getLast?_filter_cons]
  cases ((rest.filterMap entryText).filter fun e => decide (e.1 = key)).getLast? with
  | some last => rfl
  | none => by_cases here : e.1 = key <;> simp [here]

theorem get?_contextOf_over {texts : String → Option String}
    (before : ∀ key, c.get? key = (texts key).map ContextValue.infer)
    (read : contextOf c entries = .ok d) (key : String) :
    d.get? key = ((givenText? entries key).or (texts key)).map ContextValue.infer := by
  induction entries generalizing c texts with
  | nil =>
    cases read
    exact before key
  -- A value that is there stays where it agrees with the new one, which is why each value
  -- is known to come from a text: then both texts are the same.
  | cons given rest ih =>
    rw [contextOf, contextEntry_eq] at read
    cases cut : entryText given with
    | none =>
      rw [cut] at read
      cases read
    | some e =>
      rw [cut] at read
      rw [ih (Context.get?_put_infer before e.1 e.2) read, givenText?_cons cut]
      cases givenText? rest key with
      | some last => rfl
      | none => by_cases here : e.1 = key <;> simp [here]

/-- A context that was given holds under each key what its last text stands for. -/
theorem get?_contextOf (read : contextOf .empty entries = .ok c) (key : String) :
    c.get? key = (givenText? entries key).map ContextValue.infer := by
  have nothing : ∀ key, Context.empty.get? key = (none : Option String).map ContextValue.infer :=
    fun _ => rfl
  rw [get?_contextOf_over nothing read, Option.or_none]

theorem parameters?_contextOf (read : contextOf .empty entries = .ok c) (key : String) :
    c.parameters? key = none := by
  unfold Context.parameters?
  rw [get?_contextOf read]
  cases givenText? entries key with
  | none => rfl
  | some text =>
    rw [Option.map_some]
    split
    · rename_i p set
      exact absurd (Option.some.inj set) (ContextValue.infer_ne_parameters p)
    · rfl

namespace Prepared

variable {p : Prepared} {m : Machine} {s : StepExecution} {r : Repository Machine}
  {q : Parameters} {spawn : Spawner Machine} {key text : String}

/-- The last attempt of the step that is recorded for the instance of the parent. -/
def lastAttempt? (p : Prepared) : Option StepExecution :=
  p.records.lastStep? (p.records.instanceIdOf p.config.parentJob p.parameters) p.config.stepName

/-- The step starts from the context that was given, and not from that of an attempt
which did not complete. -/
def StartsAfresh (p : Prepared) : Prop := ∀ last ∈ p.lastAttempt?, last.status = .completed

/-- Where every write succeeds, the step of a parent that is not refused is handed over. -/
theorem handed?_of_writes {good : Machine → Prop} (writes : p.host.Writes good) (fine : good m)
    {i : JobInstance} {made : Records}
    (found : p.records.findOrMakeInstance p.config.parentJob p.parameters = .ok (i, made)) :
    ∃ s r, p.handed? m = some (s, r) :=
  Runner.handed?_of_writes writes (r := ⟨p.records, m⟩) fine found p.config.stepName p.seed

theorem context_of_handed (handed : p.handed? m = some (s, r)) :
    s.context = Runner.initialContext p.lastAttempt? p.seed := by
  unfold handed? Runner.handed? at handed
  rcases opened : Runner.openParent p.host p.config.parentJob p.parameters ⟨p.records, m⟩ with
    ⟨_ | parent, r₁⟩
  · rw [opened] at handed
    cases handed
  · rw [opened] at handed
    obtain ⟨_, there⟩ := Launch.opened_ok opened
    obtain ⟨i, made, found, _, instanceId, _, steps⟩ := Launch.opened_origin opened
    obtain ⟨id, kept⟩ := Records.findOrMakeInstance_steps found
    obtain ⟨answer, t, w, added, began, _⟩ := Repository.addStep_present p.host
      (s := Interleaving.recalled p.host p.config.stepName parent p.seed r₁)
      (r := ⟨r₁.records, (p.host.now r₁.world).2⟩) there
    have previous : r₁.records.lastStep? parent.jobInstanceId p.config.stepName
        = p.lastAttempt? := by
      rw [lastAttempt?, Records.lastStep?, Records.lastStep?, steps, kept, instanceId, id]
    simp only [added] at handed
    cases answer with
    | error fault => cases handed
    | ok done =>
      cases handed
      rw [began, ← previous]
      rfl

theorem context_afresh (afresh : p.StartsAfresh) (handed : p.handed? m = some (s, r)) :
    s.context = p.seed := by
  rw [context_of_handed handed]
  unfold StartsAfresh at afresh
  cases last : p.lastAttempt? with
  | none => rfl
  | some s => rw [Runner.initialContext, if_pos (afresh s last)]

/-- What a launch of the child with these parameters comes to. -/
def launch (p : Prepared) (spawn : Spawner Machine) (r : Repository Machine) (q : Parameters) :
    Except BatchError JobExecution × Repository Machine :=
  Launch.run p.host (p.step spawn).launcher (p.step spawn).job q
    ⟨r.records, (p.host.now r.world).2⟩

/-- The child is launched with these parameters, and its process is started with them. -/
structure LaunchedWith (p : Prepared) (spawn : Spawner Machine) (m : Machine)
    (s : StepExecution) (r : Repository Machine) (q : Parameters) : Prop where
  resolved : ((p.step spawn).resolve (NestedStep.begun s (p.host.now r.world).1)).1 = .ok q
  /-- The step takes over what comes of the launch. -/
  attempt : ∃ t, (p.step spawn).execute p.host s r
    = NestedStep.conclude p.host t (p.launch spawn r q)
  /-- The run goes on with what the step has made of it. -/
  ended : ∃ parent, p.ended spawn m = Interleaving.concludeParent p.host
    (Interleaving.recordStep p.host parent ((p.step spawn).execute p.host s r).1
      ((p.step spawn).execute p.host s r).2)
  /-- The child is handed the parameters, and leaves the machine as a process leaves it that
  was started with the variables for them. -/
  child : ∀ e r', Launch.start p.host (p.step spawn).job q ⟨r.records, (p.host.now r.world).2⟩
    = (.ok e, r') → e.jobParameters = q ∧ ((p.step spawn).job.body e r').2.2
      = ⟨r'.records,
        (spawn ⟨p.child.program, p.child.arguments, CommandJob.settings q⟩ r'.world).2⟩
  call : ∀ call ∈ p.call? m,
    call.1 = ⟨p.child.program, p.child.arguments, CommandJob.settings q⟩

theorem launchedWith_of_resolved (handed : p.handed? m = some (s, r))
    (resolved : ((p.step spawn).resolve (NestedStep.begun s (p.host.now r.world).1)).1 = .ok q) :
    p.LaunchedWith spawn m s r q := by
  have parameters : ∀ e r', Launch.start p.host (p.step spawn).job q
      ⟨r.records, (p.host.now r.world).2⟩ = (.ok e, r') → e.jobParameters = q := by
    intro e r' started
    rw [Launch.start_eq] at started
    split at started
    · cases started
    · obtain ⟨_, _, _, _, _, parameters, _⟩ := Launch.opened_origin started
      exact parameters
  constructor
  case resolved => exact resolved
  case attempt =>
    refine ⟨((p.step spawn).resolve (NestedStep.begun s (p.host.now r.world).1)).2, ?_⟩
    rw [NestedStep.execute_of_launched,
      NestedStep.launched_of_resolved (Prod.ext resolved rfl)]
    rfl
  case ended => exact Runner.run_of_handed ((p.step spawn).toStep p.host) handed
  case child =>
    intro e r' started
    have same := parameters e r' started
    refine ⟨same, ?_⟩
    rw [← same]
    exact p.child.perform_repository spawn e r'
  case call =>
    intro call called
    have starts : p.call? m = ((p.step spawn).handed? p.host s r).map
        fun x => (p.child.invocation x.1, x.2.world) := call?_of_handed handed
    rw [starts] at called
    obtain ⟨⟨e, r'⟩, reached, rfl⟩ := Option.map_eq_some_iff.1 called
    rw [NestedStep.handed?_of_resolved (Prod.ext resolved rfl)] at reached
    rw [CommandJob.invocation, parameters e r' (Launch.handed?_eq_some.1 reached).1]

/-- The parameters of the child hand the text over under the key, wherever the step gets as
far as to have them extracted. -/
def Carries (p : Prepared) (spawn : Spawner Machine) (m : Machine) (key text : String) : Prop :=
  ∀ s r, p.handed? m = some (s, r) →
    (∃ q, (p.step spawn).derive (NestedStep.begun s (p.host.now r.world).1) = .ok q) →
      ∃ q, p.LaunchedWith spawn m s r q ∧ q.HandsOver key text

theorem carries_of_seed (afresh : p.StartsAfresh)
    (unkept : p.seed.parameters? NestedStep.parametersKey = none)
    (there : p.seed.get? key = some (.infer text)) (named : KeySpec.AsText p.config.keys key)
    (unmarked : key ≠ NestedStep.stepTypeKey) : p.Carries spawn m key text := by
  rintro s r handed ⟨q, extracted⟩
  have seeded := context_afresh afresh handed
  -- No parameters of an earlier child are kept, so that they are extracted.
  have kept : NestedStep.kept? (NestedStep.begun s (p.host.now r.world).1) = none := by
    rw [NestedStep.kept?_begun, NestedStep.kept?, seeded, unkept]
  have resolved := NestedStep.resolve_of_derived kept extracted
  have found : (NestedStep.begun s (p.host.now r.world).1).context.get? key
      = some (.infer text) := by
    rw [NestedStep.begun, Context.get?_put_of_ne _ (Ne.symm unmarked), seeded, there]
  obtain ⟨spec, last, textual⟩ := KeySpec.lastFor_of_asText named
  obtain ⟨value, converted, put⟩ :=
    (Extraction.adds_addEntries (Extraction.derive_eq_ok.1 extracted)).named key spec _ last found
  have same : value.text = text :=
    (ContextValue.text_toParameter textual converted).trans (ContextValue.text_infer text)
  exact ⟨q, launchedWith_of_resolved handed resolved, same ▸ Parameters.handsOver_of_get? put⟩

end Prepared

/-- The text of an entry for the context comes to the child as it was given: the last entry
for a key counts, a number or a truth value that it is taken for is written as it was, and
neither the parameters of the parent nor other keys have a say. Only the mark of the step
and the context of an attempt that did not complete stand before it. What is left of the
launch is what the command comes to, and no other process makes a difference to that. -/
theorem context_reaches_child (spawn : Spawner Machine) {o : RunOptions} {m : Machine}
    {p : Prepared} (prepared : prepare o m = .ok p) (afresh : p.StartsAfresh)
    {key text : String} (given : givenText? o.context key = some text)
    (named : KeySpec.AsText p.config.keys key) (unmarked : key ≠ NestedStep.stepTypeKey) :
    p.Carries spawn m key text ∧
      ∀ verbose, (execute spawn ⟨.run o, verbose⟩ m).2.files
          = (p.ended spawn m).2.world.files ∧
        ((execute spawn ⟨.run o, verbose⟩ m).1.code = match (p.ended spawn m).1 with
          | .ok s => codeOf s.status
          | .error _ => 1) ∧
        ∀ spawn', (∀ call ∈ p.call? m, spawn' call.1 call.2 = spawn call.1 call.2) →
          execute spawn' ⟨.run o, verbose⟩ m = execute spawn ⟨.run o, verbose⟩ m := by
  obtain ⟨config, _, _, _, _, _, read⟩ := prepare_ok_iff.1 prepared
  have there : p.seed.get? key = some (.infer text) := by
    rw [get?_contextOf read, given, Option.map_some]
  refine ⟨?_, fun verbose => ?_⟩
  · exact Prepared.carries_of_seed afresh (parameters?_contextOf read _) there named unmarked
  · simp only [execute_prepared prepared]
    refine ⟨(p.run_eq spawn verbose m).1, (p.run_eq spawn verbose m).2, fun spawn' same => ?_⟩
    exact Prepared.run_congr same verbose

/-! ### A key for the number of a run, and one for the mark of the step -/

def keysText : String :=
  "keys = [\"run\", \"jobstep.Step.STEP_TYPE\"]\n\n[child]\ncommand = [\"sh\"]\n"

/-- A parent whose step failed in its run 1, before it had parameters for its child. -/
def failedOnce : Records where
  nextId := 3
  instances := [⟨1, "parent", Parameters.jobKey .empty⟩]
  executions := [{ JobExecution.create 2 ⟨1, "parent", Parameters.jobKey .empty⟩ .empty .epoch with
    status := .failed
    exitStatus := .failed
    startTime := some .epoch
    endTime := some .epoch }]
  steps := [{
    id := 3
    stepName := "nested"
    jobExecutionId := 2
    jobInstanceId := 1
    jobName := "parent"
    jobParameters := .empty
    status := .failed
    exitStatus := .failed
    context := ⟨.ofList [("run", .long 1)], false⟩
    failures := []
    startTime := some .epoch
    endTime := some .epoch
    lastUpdated := .epoch }]

def keysMachine : Machine :=
  Machine.boot ((Files.empty.put ["jobstep.toml"] (.file keysText.toUTF8)).put ["records.json"]
    (.file failedOnce.text.toUTF8)) .empty

theorem home_keysMachine : keysMachine.files.AtHome := rfl

def keysRun (store : Option String) (context : List String) : RunOptions :=
  ⟨"jobstep.toml", [], context, store, none⟩

def keysPrepared (store : Option String) (records : Records) (seed : Context) : Prepared where
  config := { RunConfig.default with
    keys := ["run", "jobstep.Step.STEP_TYPE"]
    store
    child := { ChildConfig.default with command := ["sh"] } }
  records := records
  child := ⟨"child", "sh", [], true, .empty⟩
  parameters := .empty
  seed := seed

theorem prepare_keys {store : Option String} {context : List String} {records : Records}
    {seed : Context} (opened : openStore keysMachine store = .ok records)
    (read : contextOf .empty context = .ok seed) :
    prepare (keysRun store context) keysMachine = .ok (keysPrepared store records seed) := by
  have plain : Files.PlainName "jobstep.toml" := by
    constructor <;> decide
  have filed : keysMachine.files.entries.get? (Files.joined ["jobstep.toml"])
      = some (.file keysText.toUTF8) := by
    have differ : Files.joined ["records.json"] ≠ Files.joined ["jobstep.toml"] := by decide
    simp only [keysMachine, Machine.boot, Files.put, KeyMap.get?_insert, if_neg differ, if_true]
  obtain ⟨there, text⟩ := Files.read_filed plain home_keysMachine filed
  have parsed : RunConfig.ofText? keysText = some (keysPrepared none .empty .empty).config := by
    decide +kernel
  refine prepare_ok_iff.2 ⟨(keysPrepared none .empty .empty).config, ?_, ?_, ?_, rfl, rfl, read⟩
  · simp only [RunConfig.load, keysRun, there, if_true, text, parsed]
    rfl
  · cases store <;> rfl
  · cases store <;> exact opened

/-- A store whose text is in its file holds what the text is read as. -/
theorem openStore_filed {m : Machine} {store text : String} {records : Records}
    (plain : Files.PlainName store) (atHome : m.files.AtHome)
    (filed : m.files.entries.get? (Files.joined [store]) = some (.file text.toUTF8))
    (read : Records.ofText? text = some records) : openStore m (some store) = .ok records := by
  obtain ⟨there, content⟩ := Files.read_filed plain atHome filed
  simp only [openStore, Machine.openRecords, there, if_true, content, read]

theorem plain_records : Files.PlainName "records.json" := by
  constructor <;> decide

theorem filed_failedOnce : keysMachine.files.entries.get? (Files.joined ["records.json"])
    = some (.file failedOnce.text.toUTF8) := by
  simp only [keysMachine, Machine.boot, Files.put, KeyMap.get?_insert, if_true]

theorem opened_failedOnce : openStore keysMachine (some "records.json") = .ok failedOnce := by
  have reread : failedOnce.reread = some failedOnce := by decide +kernel
  exact openStore_filed plain_records home_keysMachine filed_failedOnce
    ((Records.ofText?_text _).trans reread)

theorem writes_unstored : (Machine.host none).Writes fun _ => True := by
  constructor
  · intros
    trivial
  · intro records m _
    exact ⟨rfl, trivial⟩

/-- A store is written where no directory has its name. -/
theorem writes_stored {store : String} (plain : Files.PlainName store) :
    (Machine.host (some store)).Writes fun m => m.files.AtHome ∧
      m.files.entries.get? (Files.joined [store]) ≠ some .directory := by
  constructor
  · intro m fine
    exact fine
  · rintro records m ⟨atHome, free⟩
    simp only [Machine.host, Machine.save, Files.write_free plain atHome free, true_and]
    refine ⟨atHome, ?_⟩
    simp [Files.put]

/-- The text that the keys make of a context, under one of its keys. -/
def keysText? (c : Context) (key : String) : Option String :=
  (Extraction.addEntries (c.put NestedStep.stepTypeKey (.string NestedStep.stepType)) .empty
    ["run", "jobstep.Step.STEP_TYPE"]).toOption.bind fun q =>
      (q.get? key).map fun found => found.value.text

theorem keysText?_of_carries {store : Option String} {records : Records} {seed : Context}
    {key text : String} {s : StepExecution} {r : Repository Machine}
    (handed : (keysPrepared store records seed).handed? keysMachine = some (s, r))
    (carries : (keysPrepared store records seed).Carries (ending (.exited 0)) keysMachine key text)
    (unkept : s.context.parameters? NestedStep.parametersKey = none)
    (extracts : (keysText? s.context key).isSome = true) :
    keysText? s.context key = some text ∧ ∃ q,
      (keysPrepared store records seed).LaunchedWith (ending (.exited 0)) keysMachine s r q ∧
        q.HandsOver key text := by
  obtain ⟨found, told⟩ := Option.isSome_iff_exists.1 extracts
  unfold keysText? at told ⊢
  cases extracted : Extraction.addEntries
    (s.context.put NestedStep.stepTypeKey (.string NestedStep.stepType)) .empty
      ["run", "jobstep.Step.STEP_TYPE"] with
  | error fault =>
    rw [extracted] at told
    cases told
  | ok q =>
    have derived : ∀ now, ((keysPrepared store records seed).step (ending (.exited 0))).derive
        (NestedStep.begun s now) = .ok q := fun _ => Extraction.derive_eq_ok.2 extracted
    obtain ⟨q', launched, hands⟩ := carries s r handed ⟨q, derived _⟩
    have resolved : ∀ now, (((keysPrepared store records seed).step (ending (.exited 0))).resolve
        (NestedStep.begun s now)).1 = .ok q := fun now =>
      NestedStep.resolve_of_derived ((NestedStep.kept?_begun s now).trans unkept) (derived now)
    cases launched.resolved.symm.trans (resolved _)
    obtain ⟨value, there, same⟩ := hands.parameter
    refine ⟨?_, q, launched, hands⟩
    simp only [Except.toOption, Option.bind_some, there, Option.map_some, same]

theorem asText_keys {store : Option String} {records : Records} {seed : Context} {key : String}
    (listed : key = "run" ∨ key = "jobstep.Step.STEP_TYPE") :
    KeySpec.AsText (keysPrepared store records seed).config.keys key := by
  rcases listed with rfl | rfl
  · exact ⟨[], "run", ["jobstep.Step.STEP_TYPE"], rfl, by decide, by decide, by decide⟩
  · exact ⟨["run"], "jobstep.Step.STEP_TYPE", [], rfl, by decide, by decide, by decide⟩

theorem afresh_keys (seed : Context) : (keysPrepared none .empty seed).StartsAfresh := by
  intro last there
  cases there

theorem handed_keys (seed : Context) :
    ∃ s r, (keysPrepared none .empty seed).handed? keysMachine = some (s, r) ∧
      s.context = seed := by
  have found : Records.empty.findOrMakeInstance "parent" .empty = .ok _ := rfl
  obtain ⟨s, r, handed⟩ := Prepared.handed?_of_writes (p := keysPrepared none .empty seed)
    (m := keysMachine) writes_unstored trivial found
  exact ⟨s, r, handed, Prepared.context_afresh (afresh_keys seed) handed⟩

/-- The attempt that failed is gone on from, whatever was given for another one. -/
theorem handed_failedOnce (seed : Context) :
    ∃ s r, (keysPrepared (some "records.json") failedOnce seed).handed? keysMachine
        = some (s, r) ∧ s.context = ⟨.ofList [("run", .long 1)], false⟩ := by
  have free : keysMachine.files.entries.get? (Files.joined ["records.json"])
      ≠ some .directory := by
    rw [filed_failedOnce]
    exact nofun
  have made : (failedOnce.findOrMakeInstance "parent" .empty).toOption.isSome = true := by
    decide +kernel
  have last : failedOnce.lastStep? (failedOnce.instanceIdOf "parent" .empty) "nested"
      = failedOnce.steps[0]? := by decide +kernel
  cases found : failedOnce.findOrMakeInstance "parent" .empty with
  | error fault =>
    rw [found] at made
    cases made
  | ok admitted =>
    obtain ⟨s, r, handed⟩ := Prepared.handed?_of_writes
      (p := keysPrepared (some "records.json") failedOnce seed)
      (writes_stored plain_records) ⟨home_keysMachine, free⟩ found
    refine ⟨s, r, handed, (Prepared.context_of_handed handed).trans ?_⟩
    exact congrArg (Runner.initialContext · seed) last

/-- What was typed for the number of the run is neither cut nor written in another way. -/
theorem run_number_reaches_child :
    ∃ seed, prepare (keysRun none ["run=1", "run = 007 = x"]) keysMachine
        = .ok (keysPrepared none .empty seed) ∧
      ∃ s r q, (keysPrepared none .empty seed).handed? keysMachine = some (s, r) ∧
        (keysPrepared none .empty seed).LaunchedWith (ending (.exited 0)) keysMachine s r q ∧
        q.HandsOver "run" " 007 = x" := by
  have prepared : prepare (keysRun none ["run=1", "run = 007 = x"]) keysMachine
      = .ok (keysPrepared none .empty ((Context.empty.put "run" (.long 1)).put "run"
        (.string " 007 = x"))) := prepare_keys rfl rfl
  have given : givenText? ["run=1", "run = 007 = x"] "run" = some " 007 = x" := by decide +kernel
  have carries := (context_reaches_child (ending (.exited 0)) prepared (afresh_keys _) given
    (asText_keys (Or.inl rfl)) (by decide)).1
  obtain ⟨s, r, handed, seeded⟩ :=
    handed_keys ((Context.empty.put "run" (.long 1)).put "run" (.string " 007 = x"))
  obtain ⟨_, q, launched, hands⟩ := keysText?_of_carries handed carries
    (by rw [seeded]; decide +kernel) (by rw [seeded]; decide +kernel)
  exact ⟨_, prepared, s, r, q, handed, launched, hands⟩

/-- It is not so that every text is carried: neither under the key of the mark, nor to the
child of a step that goes on from an attempt which did not complete. -/
theorem not_every_text_carried :
    (¬ ∀ (spawn : Spawner Machine) (o : RunOptions) (m : Machine) (p : Prepared),
      prepare o m = .ok p → p.StartsAfresh → ∀ key text : String,
        givenText? o.context key = some text → KeySpec.AsText p.config.keys key →
          p.Carries spawn m key text) ∧
      ¬ ∀ (spawn : Spawner Machine) (o : RunOptions) (m : Machine) (p : Prepared),
        prepare o m = .ok p → ∀ key text : String, givenText? o.context key = some text →
          KeySpec.AsText p.config.keys key → key ≠ NestedStep.stepTypeKey →
            p.Carries spawn m key text := by
  constructor
  · intro carried
    have prepared : prepare (keysRun none ["jobstep.Step.STEP_TYPE=own"]) keysMachine
        = .ok (keysPrepared none .empty
          (Context.empty.put "jobstep.Step.STEP_TYPE" (.string "own"))) := prepare_keys rfl rfl
    have carries := carried (ending (.exited 0)) _ _ _ prepared (afresh_keys _)
      "jobstep.Step.STEP_TYPE" "own" (by decide +kernel) (asText_keys (Or.inr rfl))
    obtain ⟨s, r, handed, seeded⟩ :=
      handed_keys (Context.empty.put "jobstep.Step.STEP_TYPE" (.string "own"))
    have own := (keysText?_of_carries handed carries (by rw [seeded]; decide +kernel)
      (by rw [seeded]; decide +kernel)).1
    rw [seeded] at own
    exact absurd own (by decide +kernel)
  · intro carried
    have prepared : prepare (keysRun (some "records.json") ["run=2"]) keysMachine
        = .ok (keysPrepared (some "records.json") failedOnce
          (Context.empty.put "run" (.long 2))) := prepare_keys opened_failedOnce rfl
    have carries := carried (ending (.exited 0)) _ _ _ prepared "run" "2" (by decide +kernel)
      (asText_keys (Or.inl rfl)) (by decide)
    obtain ⟨s, r, handed, earlier⟩ := handed_failedOnce (Context.empty.put "run" (.long 2))
    have typed := (keysText?_of_carries handed carries (by rw [earlier]; decide +kernel)
      (by rw [earlier]; decide +kernel)).1
    rw [earlier] at typed
    exact absurd typed (by decide +kernel)

end CommandLine

end NestedBatch
