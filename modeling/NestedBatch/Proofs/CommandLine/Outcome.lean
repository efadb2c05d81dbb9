import NestedBatch.CommandLine.Run
import NestedBatch.Proofs.Config.Codes
import NestedBatch.Proofs.Files.Plain
import NestedBatch.Proofs.Runner.Outcome

/-! What becomes of a run that was asked for on the command line. Whatever was given with
it, the process of the child decides what the program exits with and what is recorded of
the parent, and the run has started that process once at most. -/
namespace NestedBatch

namespace CommandLine

variable {spawn spawn' : Spawner Machine} {o : RunOptions} {verbose : Bool} {m : Machine}
  {p : Prepared}

/-- The exit code for a step that ended so. -/
def codeOf : Status → Nat
  | .completed => 0
  | .stopped => 2
  | _ => 1

theorem codeOf_le (s : Status) : codeOf s ≤ 2 := by
  cases s <;> decide

section Codes

variable {c : CommandJob} {process : Option (Except IoFault ProcessOutcome)}

theorem codeOf_told_zero :
    codeOf (c.told process).1 = 0 ↔
      ∃ code : Nat, process = some (.ok (.exited code)) ∧
        (code = 0 ∨ c.exitCodes.contains code = true) := by
  rcases process with _ | _ | code | signal
  case some.ok.exited =>
    rw [c.status_told_exited]
    split
    · rename_i success
      exact iff_of_true rfl ⟨code, rfl, success⟩
    · rename_i failure
      refine iff_of_false (by decide) ?_
      rintro ⟨_, same, success⟩
      cases same
      exact failure success
  all_goals simp [CommandJob.told, codeOf]

theorem codeOf_told_two :
    codeOf (c.told process).1 = 2 ↔ ∃ signal, process = some (.ok (.killed signal)) := by
  rcases process with _ | _ | code | signal
  case some.ok.exited =>
    rw [c.status_told_exited]
    split <;> simp [codeOf]
  all_goals simp [CommandJob.told, codeOf]

/-- A parent is taken from its start to where the step has come, whichever that is. -/
theorem upgradeTo_told (c : CommandJob) (process : Option (Except IoFault ProcessOutcome)) :
    Status.started.upgradeTo (c.told process).1 = (c.told process).1 := by
  rcases process with _ | _ | code | signal
  case some.ok.exited =>
    rw [c.status_told_exited]
    split <;> rfl
  all_goals rfl

end Codes

/-- The codes that count as success are those of the configuration. -/
theorem prepare_codes (prepared : prepare o m = .ok p) :
    p.config.child.parsedCodes = .ok p.child.exitCodes := by
  simp only [prepare, bind, Except.bind] at prepared
  split at prepared
  · cases prepared
  · rename_i config loaded
    split at prepared
    · cases prepared
    · cases made : config.child.toJob with
      | error fault =>
        rw [made] at prepared
        cases prepared
      | ok job =>
        simp only [made, Except.mapError] at prepared
        split at prepared
        · cases prepared
        · split at prepared
          · cases prepared
          · cases prepared
            exact ChildConfig.toJob_codes made

namespace Prepared

abbrev host (p : Prepared) : Host Machine := Machine.host p.config.store

/-- The parent of a run, where one can be made. -/
def parent? (p : Prepared) (m : Machine) : Except BatchError JobExecution × Repository Machine :=
  Repository.createExecution p.host p.config.parentJob p.parameters ⟨p.records, m⟩

/-- What the step run answers, and what it leaves. -/
def ended (p : Prepared) (spawn : Spawner Machine) (m : Machine) :
    Except BatchError StepExecution × Repository Machine :=
  Runner.run p.host ((p.step spawn).toStep p.host) p.config.parentJob p.parameters p.seed
    ⟨p.records, m⟩

def handed? (p : Prepared) (m : Machine) : Option (StepExecution × Repository Machine) :=
  Runner.handed? p.host p.config.stepName p.config.parentJob p.parameters p.seed ⟨p.records, m⟩

/-- The call by which the process of the child is started, and the machine then, where
the run gets as far as that. What processes are started with makes no difference yet. -/
def call? (p : Prepared) (m : Machine) : Option (Invocation × Machine) :=
  (p.handed? m).bind fun (s, r) =>
    ((p.step fun _ m => (.error .notFound, m)).handed? p.host s r).map
      fun (e, r) => (p.child.invocation e, r.world)

def process? (p : Prepared) (spawn : Spawner Machine) (m : Machine) :
    Option (Except IoFault ProcessOutcome) :=
  (p.call? m).map fun call => (spawn call.1 call.2).1

/-- No write to the store has a fault: it would be the answer of the run or of the
launch of the child. -/
structure Saves (p : Prepared) (spawn : Spawner Machine) (m : Machine) : Prop where
  run : ∀ fault, (p.ended spawn m).1 ≠ .error (.io fault)
  launch : ∀ s r, p.handed? m = some (s, r) → ∀ fault,
    ((p.step spawn).launched p.host s r).1 ≠ .error (.io fault)

theorem call?_of_handed {s : StepExecution} {r : Repository Machine}
    (handed : p.handed? m = some (s, r)) :
    p.call? m = ((p.step spawn).handed? p.host s r).map
      fun x => (p.child.invocation x.1, x.2.world) := by
  simp only [call?, handed, Option.bind_some]
  rfl

/-- What a run comes to depends on no other process than that of its child. -/
theorem ended_congr (same : ∀ call ∈ p.call? m, spawn' call.1 call.2 = spawn call.1 call.2) :
    p.ended spawn' m = p.ended spawn m := by
  refine Runner.run_congr ((p.step spawn).toStep p.host) fun s r handed => ?_
  refine NestedStep.execute_congr (p.step spawn) fun e r' reached => ?_
  have call : p.call? m = some (p.child.invocation e, r'.world) := by
    rw [call?_of_handed handed, reached]
    rfl
  exact CommandJob.perform_congr (same _ call)

theorem run_congr (same : ∀ call ∈ p.call? m, spawn' call.1 call.2 = spawn call.1 call.2)
    (verbose : Bool) : p.run spawn' verbose m = p.run spawn verbose m := by
  have ended := ended_congr same
  simp only [Prepared.ended] at ended
  simp only [run, ended]

/-- What is left of a run that made its parent: the step is answered, the parent tells
the same, and the store has the records as they are then. -/
structure Settled (p : Prepared) (spawn : Spawner Machine) (m : Machine) (id : Nat) : Prop where
  told : ∃ s x, (p.ended spawn m).1 = .ok s ∧
    (p.ended spawn m).2.records.execution? id = some x ∧
    x.status = s.status ∧ x.exitStatus = s.exitStatus ∧
    (x.status, x.exitStatus.code) = p.child.told (p.process? spawn m)
  filed : ∀ store, p.config.store = some store → ∃ files : Files,
    files.write store (p.ended spawn m).2.records.text
      = .ok (p.ended spawn m).2.world.files

/-- A parent that cannot be made ends the run before its step. -/
theorem ended_of_refused (spawn : Spawner Machine) {fault : BatchError} {r : Repository Machine}
    (refused : Runner.openParent p.host p.config.parentJob p.parameters ⟨p.records, m⟩
      = (.error fault, r)) :
    (p.ended spawn m).1 = .error fault ∧ p.process? spawn m = none := by
  constructor
  · simp only [ended, Runner.run, refused]
  · simp only [process?, call?, handed?, Runner.handed?, refused, Option.bind_none,
      Option.map_none]

/-- The store was written when the records were saved for the last time. -/
theorem files_of_saved {store : String} {records : Records} {before after : Machine}
    (named : p.config.store = some store) (saved : p.host.save records before = (none, after)) :
    before.files.write store records.text = .ok after.files := by
  simp only [host, Machine.host, Machine.save, named] at saved
  split at saved
  · cases saved
  · rename_i files written
    cases saved
    exact written

theorem settled_of_opened (saves : p.Saves spawn m) {parent : JobExecution}
    {r : Repository Machine}
    (opened : Runner.openParent p.host p.config.parentJob p.parameters ⟨p.records, m⟩
      = (.ok parent, r)) : p.Settled spawn m parent.id := by
  have contained : Launch.Contained (p.step spawn).job :=
    Launch.contained_of_confined (p.child.confined_toJob spawn)
  obtain ⟨s, r', handed, concluded⟩ := Runner.concluded_of_opened
    ((p.step spawn).toStep p.host) ((p.step spawn).calls_execute contained _)
    (fun s r => ((p.step spawn).untouched_execute _ s r).id) opened saves.run
  have process : p.process? spawn m
      = ((p.step spawn).handed? p.host s r').map
        fun x => (spawn (p.child.invocation x.1) x.2.world).1 := by
    rw [process?, call?_of_handed handed, Option.map_map]
    rfl
  have told := NestedStep.tells_process (n := p.step spawn) (c := p.child) rfl
    (saves.launch s r' handed)
  rw [← process] at told
  have ended : Runner.Concluded p.host parent ((p.step spawn).execute p.host s r').1
      (p.ended spawn m) := concluded
  obtain ⟨⟨t, answer, status, exitStatus⟩, ⟨x, stored, xStatus, xExitStatus⟩, w, saved⟩ := ended
  have same := congrArg Prod.fst told
  dsimp only at same
  rw [same] at status xStatus
  rw [upgradeTo_told] at xStatus
  constructor
  · refine ⟨t, x, answer, stored, xStatus.trans status.symm, xExitStatus.trans exitStatus.symm, ?_⟩
    rw [xStatus, xExitStatus, ← told]
  · intro store named
    exact ⟨w.files, files_of_saved named saved⟩

theorem settled_of_created (saves : p.Saves spawn m) {parent : JobExecution}
    {r : Repository Machine} (created : p.parent? m = (.ok parent, r)) :
    p.Settled spawn m parent.id := by
  rcases Runner.opened_of_created created with ⟨fault, unsaved⟩ | ⟨begun, r', opened, same⟩
  · have refused : Runner.openParent p.host p.config.parentJob p.parameters ⟨p.records, m⟩
        = (.error (.io fault), _) := Prod.ext unsaved rfl
    exact absurd (ended_of_refused spawn refused).1 (saves.run fault)
  · exact same ▸ settled_of_opened saves opened

theorem run_eq (p : Prepared) (spawn : Spawner Machine) (verbose : Bool) (m : Machine) :
    (p.run spawn verbose m).2.files = (p.ended spawn m).2.world.files ∧
      (p.run spawn verbose m).1.code = match (p.ended spawn m).1 with
        | .ok s => codeOf s.status
        | .error _ => 1 := by
  simp only [run, ended]
  split <;> rename_i answered <;> rw [answered] <;> exact ⟨rfl, rfl⟩

/-- The process of the child decides the exit code. -/
theorem code_run (saves : p.Saves spawn m) (verbose : Bool) :
    (p.run spawn verbose m).1.code = codeOf (p.child.told (p.process? spawn m)).1 := by
  rw [(p.run_eq spawn verbose m).2]
  rcases opened : Runner.openParent p.host p.config.parentJob p.parameters ⟨p.records, m⟩ with
    ⟨fault | parent, r⟩
  · obtain ⟨answer, none⟩ := ended_of_refused spawn opened
    rw [answer, none]
    rfl
  · obtain ⟨s, x, answer, _, status, _, told⟩ := (settled_of_opened saves opened).told
    rw [answer, ← told, status]

end Prepared

theorem execute_prepared (prepared : prepare o m = .ok p) :
    execute spawn ⟨.run o, verbose⟩ m = p.run spawn verbose m := by
  simp only [execute, prepared]

theorem code_unprepared {message : String} (unprepared : prepare o m = .error message) :
    (execute spawn ⟨.run o, verbose⟩ m).1.code = 1 := by
  simp only [execute, unprepared, Outcome.code]

/-- Whatever a run was asked for with, the process of its child decides its end. The exit
code is 0 exactly if that process exited with 0 or with a code that counts as success,
2 exactly if it was killed, and 1 in all other cases. A parent that was made is recorded
and stored with the status and the exit status of the step. There is one call at most that
starts a process, and nothing else about what starts processes makes a difference. -/
theorem process_decides_outcome (spawn : Spawner Machine) (o : RunOptions) (verbose : Bool)
    (m : Machine) (saves : ∀ p, prepare o m = .ok p → p.Saves spawn m) :
    ((execute spawn ⟨.run o, verbose⟩ m).1.code = 0 ↔
        ∃ p code, prepare o m = .ok p ∧ p.process? spawn m = some (.ok (.exited code)) ∧
          (code = 0 ∨ p.child.exitCodes.contains code = true)) ∧
      ((execute spawn ⟨.run o, verbose⟩ m).1.code = 2 ↔
        ∃ p signal, prepare o m = .ok p ∧ p.process? spawn m = some (.ok (.killed signal))) ∧
      (execute spawn ⟨.run o, verbose⟩ m).1.code ≤ 2 ∧
      ∀ p, prepare o m = .ok p →
        p.config.child.parsedCodes = .ok p.child.exitCodes ∧
        (∀ parent r, p.parent? m = (.ok parent, r) → p.Settled spawn m parent.id) ∧
        (execute spawn ⟨.run o, verbose⟩ m).2.files = (p.ended spawn m).2.world.files ∧
        ∀ spawn', (∀ call ∈ p.call? m, spawn' call.1 call.2 = spawn call.1 call.2) →
          execute spawn' ⟨.run o, verbose⟩ m = execute spawn ⟨.run o, verbose⟩ m := by
  cases prepared : prepare o m with
  | error message =>
    rw [code_unprepared prepared]
    refine ⟨iff_of_false (by decide) ?_, iff_of_false (by decide) ?_, by decide, ?_⟩
    · rintro ⟨p, code, impossible, _⟩
      cases impossible
    · rintro ⟨p, signal, impossible, _⟩
      cases impossible
    · intro p impossible
      cases impossible
  | ok p =>
    have saves := saves p prepared
    rw [execute_prepared prepared, Prepared.code_run saves]
    refine ⟨?_, ?_, codeOf_le _, ?_⟩
    · rw [codeOf_told_zero]
      constructor
      · rintro ⟨code, exited, success⟩
        exact ⟨p, code, rfl, exited, success⟩
      · rintro ⟨q, code, same, exited, success⟩
        cases same
        exact ⟨code, exited, success⟩
    · rw [codeOf_told_two]
      constructor
      · rintro ⟨signal, killed⟩
        exact ⟨p, signal, rfl, killed⟩
      · rintro ⟨q, signal, same, killed⟩
        cases same
        exact ⟨signal, killed⟩
    · intro q same
      cases same
      refine ⟨prepare_codes prepared, ?_, (p.run_eq spawn verbose m).1, ?_⟩
      · intro parent r created
        exact Prepared.settled_of_created saves created
      · intro spawn' same
        exact (execute_prepared prepared).trans (Prepared.run_congr same verbose)

/-! ### Mapped codes -/

def mappingText : String :=
  "[child]\ncommand = [\"sh\"]\n\n[child.exit_codes]\n0 = \"CUSTOM\"\n3 = \"NOTED\"\n"

def mappingMachine : Machine :=
  Machine.boot (Files.empty.put ["jobstep.toml"] (.file mappingText.toUTF8)) .empty

def mappingRun : RunOptions := ⟨"jobstep.toml", [], [], none, none⟩

def mapping : Prepared where
  config := { RunConfig.default with
    child := { ChildConfig.default with
      command := ["sh"]
      exitCodes := .ofList [("0", "CUSTOM"), ("3", "NOTED")] } }
  records := .empty
  child := ⟨"child", "sh", [], true, .ofList [(0, "CUSTOM"), (3, "NOTED")]⟩
  parameters := .empty
  seed := .empty

/-- Every process ends in the same way, and leaves the machine as it was. -/
def ending (outcome : ProcessOutcome) : Spawner Machine := fun _ m => (.ok outcome, m)

theorem prepare_mapping : prepare mappingRun mappingMachine = .ok mapping := by
  have plain : Files.PlainName "jobstep.toml" := by
    constructor <;> decide
  have written : Files.empty.write "jobstep.toml" mappingText = .ok mappingMachine.files :=
    Files.write_free plain (f := Files.empty) rfl nofun mappingText
  obtain ⟨_, there, read⟩ := Files.read_write plain (f := Files.empty) rfl written
  have parsed : RunConfig.ofText? mappingText = some mapping.config := by decide +kernel
  have loaded : RunConfig.load mappingMachine "jobstep.toml" = .ok mapping.config := by
    simp only [RunConfig.load, there, if_true, read, parsed]
    rfl
  simp only [prepare, mappingRun, loaded]
  rfl

theorem saves_mapping (outcome : ProcessOutcome)
    (answered : (mapping.ended (ending outcome) mappingMachine).1.toOption.isSome = true)
    (launched : (mapping.handed? mappingMachine).all (fun x =>
      ((mapping.step (ending outcome)).launched mapping.host x.1 x.2).1.toOption.isSome)
        = true) : mapping.Saves (ending outcome) mappingMachine := by
  constructor
  · intro fault unsaved
    rw [unsaved] at answered
    cases answered
  · intro s r handed fault unsaved
    rw [handed] at launched
    simp only [Option.all_some, unsaved] at launched
    cases launched

theorem process_mapping (outcome : ProcessOutcome) :
    mapping.process? (ending outcome) mappingMachine = some (.ok outcome) := by
  have called : (mapping.call? mappingMachine).isSome = true := by decide +kernel
  obtain ⟨call, called⟩ := Option.isSome_iff_exists.1 called
  simp only [Prepared.process?, called, Option.map_some, ending]

/-- A process that exits with a mapped code is a success, and its parent tells the text. -/
theorem noted_outcome :
    (execute (ending (.exited 3)) ⟨.run mappingRun, false⟩ mappingMachine).1.code = 0 ∧
      ∃ parent r x, mapping.parent? mappingMachine = (.ok parent, r) ∧
        (mapping.ended (ending (.exited 3)) mappingMachine).2.records.execution? parent.id
          = some x ∧ (x.status, x.exitStatus.code) = (.completed, "NOTED") := by
  have saves : mapping.Saves (ending (.exited 3)) mappingMachine :=
    saves_mapping _ (by decide +kernel) (by decide +kernel)
  obtain ⟨zero, _, _, prepared⟩ := process_decides_outcome (ending (.exited 3)) mappingRun false
    mappingMachine fun p same => by
      cases prepare_mapping.symm.trans same
      exact saves
  obtain ⟨_, settles, _⟩ := prepared mapping prepare_mapping
  obtain ⟨parent, r, created⟩ : ∃ parent r,
    mapping.parent? mappingMachine = (.ok parent, r) := ⟨_, _, rfl⟩
  obtain ⟨s, x, _, stored, _, _, told⟩ := (settles parent r created).told
  rw [process_mapping] at told
  refine ⟨zero.2 ⟨mapping, 3, prepare_mapping, process_mapping _, Or.inr (by decide)⟩, ?_⟩
  exact ⟨parent, r, x, created, stored, told⟩

/-- It is not so that every text a code is mapped to is told where it is the job's own:
the code 0 has its own exit status, and a text for it goes unheard. -/
theorem custom_untold :
    ¬ ∀ (spawn : Spawner Machine) (o : RunOptions) (m : Machine) (p : Prepared),
      prepare o m = .ok p → p.Saves spawn m →
        ∀ (parent : JobExecution) (r : Repository Machine),
          p.parent? m = (.ok parent, r) →
            ∀ (code : Nat) (text : String), p.process? spawn m = some (.ok (.exited code)) →
              p.child.exitCodes.get? code = some text → text ∉ ExitStatus.frameworkCodes →
                ∃ x, (p.ended spawn m).2.records.execution? parent.id = some x ∧
                  x.exitStatus.code = text := by
  intro tells
  have saves : mapping.Saves (ending (.exited 0)) mappingMachine :=
    saves_mapping _ (by decide +kernel) (by decide +kernel)
  obtain ⟨parent, r, created⟩ : ∃ parent r,
    mapping.parent? mappingMachine = (.ok parent, r) := ⟨_, _, rfl⟩
  obtain ⟨s, x, _, stored, _, _, told⟩ := (Prepared.settled_of_created saves created).told
  rw [process_mapping] at told
  obtain ⟨y, found, custom⟩ := tells (ending (.exited 0)) mappingRun mappingMachine mapping
    prepare_mapping saves parent r created 0 "CUSTOM" (process_mapping _) (by decide) (by decide)
  cases stored.symm.trans found
  have completed : x.exitStatus.code = "COMPLETED" := congrArg Prod.snd told
  exact absurd (custom.symm.trans completed) (by decide)

end CommandLine

end NestedBatch
