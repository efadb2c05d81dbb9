import NestedBatch.CommandLine.Basic
import NestedBatch.Config.Reader
import NestedBatch.Parameter.Assignment
import NestedBatch.Report
import NestedBatch.Runner
import NestedBatch.Step.Nested

/-! Carrying out what the command line asks for. -/
namespace NestedBatch.CommandLine

/-- How a request ended: with an exit code, or with the text of an error. -/
inductive Outcome where
  | exited (code : Nat)
  | failed (message : String)

/-- What the program exits with. -/
def Outcome.code : Outcome → Nat
  | .exited code => code
  | .failed _ => 1

def exitCode (s : StepExecution) : Nat :=
  match s.status with
  | .completed => 0
  | .stopped => 2
  | _ => 1

/-- An entry of the context, given as `key=value`. -/
def contextEntry (given : String) : Option (String × ContextValue) :=
  (Text.cutFirst '=' given.toList).map fun p =>
    (String.ofList (Text.trimBlanks p.1), .infer (String.ofList p.2))

def contextOf (c : Context) : List String → Except String Context
  | [] => .ok c
  | given :: rest =>
    match contextEntry given with
    | none => .error ("expected key=value, got '" ++ given ++ "'")
    | some (key, v) => contextOf (c.put key v) rest

def openStore (m : Machine) : Option String → Except String Records
  | none => .ok .empty
  | some store =>
    match m.openRecords store with
    | .ok records => .ok records
    | .error e => .error ("opening store " ++ store ++ ": " ++ e.chain)

structure Prepared where
  config : RunConfig
  records : Records
  child : CommandJob
  parameters : Parameters
  seed : Context

/-- Makes everything ready for a run; the first thing that fails is told. -/
def prepare (o : RunOptions) (m : Machine) : Except String Prepared := do
  let config ← (RunConfig.load m o.config).mapError RunConfig.Fault.message
  let config : RunConfig :=
    { config with
      store := o.store.or config.store
      launcher := o.launcher.getD config.launcher }
  let records ← openStore m config.store
  let child ← config.child.toJob.mapError CommandFault.message
  let parameters ← (Parameter.setOfAssignments o.parameters).mapError fun e =>
    (BatchError.invalidParameters e).chain
  let seed ← contextOf .empty o.context
  .ok ⟨config, records, child, parameters, seed⟩

def Prepared.step (p : Prepared) (spawn : Spawner Machine) : NestedStep Machine where
  name := p.config.stepName
  job := p.child.toJob spawn
  launcher := p.config.launcher
  derive := Extraction.derive ⟨p.config.keys, p.config.inheritAll⟩

def stepLines (verbose : Bool) (s : StepExecution) : List String :=
  Report.outcomeLines s ++ (if verbose then Report.summaryLines s else [])

def Prepared.run (p : Prepared) (spawn : Spawner Machine) (verbose : Bool) (m : Machine) :
    Outcome × Machine :=
  let h := Machine.host p.config.store
  let step := (p.step spawn).toStep h
  match Runner.run h step p.config.parentJob p.parameters p.seed ⟨p.records, m⟩ with
  | (.error e, r) => (.failed e.chain, r.world)
  | (.ok s, r) => (.exited (exitCode s), r.world.print (Report.text (stepLines verbose s)))

/-! ### Demonstration -/

def endingWith (name : String) (status : Status) : Job Machine :=
  ⟨name, true, fun e r => (.done, { e with status }, r)⟩

def demoJobs : List (String × Job Machine) :=
  [("completes", endingWith "child-completes" .completed),
   ("completes with custom exit",
    ⟨"child-custom-exit", true, fun e r =>
      let exitStatus : ExitStatus := ⟨"COMPLETED_WITH_SKIPS", "2 records skipped"⟩
      (.done, { e with status := .completed, exitStatus }, r)⟩),
   ("reports failure", endingWith "child-fails" .failed),
   ("stops", endingWith "child-stops" .stopped),
   ("raises an error", ⟨"child-raises", true, fun e r => (.raised "disk full", e, r)⟩)]

def demoParameters : Parameters := .ofList [("demo", ⟨.string "1", true⟩)]

def demoSeed : Context := Context.empty.put "input" (.string "demo.csv")

/-- Runs one child as the step of a parent of its own. -/
def demoStep (label : String) (job : Job Machine) (r : Repository Machine) :
    Except BatchError Unit × Repository Machine :=
  let h := Machine.host none
  let r : Repository Machine := ⟨r.records, r.world.printLine ("Child " ++ label ++ ":")⟩
  let step : NestedStep Machine :=
    ⟨job.name ++ "-step", job, .sameThread, Extraction.derive ⟨["input"], false⟩⟩
  match Runner.run h (step.toStep h) ("parent-" ++ job.name) demoParameters demoSeed r with
  | (.error e, r) => (.error e, r)
  | (.ok s, r) => (.ok (), ⟨r.records, r.world.print (Report.text (Report.outcomeLines s))⟩)

def demoSteps : List (String × Job Machine) → Repository Machine →
    Except BatchError Unit × Repository Machine
  | [], r => (.ok (), r)
  | (label, job) :: rest, r =>
    match demoStep label job r with
    | (.error e, r) => (.error e, r)
    | (.ok _, r) => demoSteps rest r

def demonstrate (m : Machine) : Outcome × Machine :=
  match demoSteps demoJobs ⟨.empty, m⟩ with
  | (.error e, r) => (.failed e.chain, r.world)
  | (.ok _, r) =>
    let lines := "" :: Report.executionsLines r.records.allExecutions
    (.exited 0, r.world.print (Report.text lines))

def execute (spawn : Spawner Machine) (c : CommandLine) (m : Machine) : Outcome × Machine :=
  match c.request with
  | .run o =>
    match prepare o m with
    | .error message => (.failed message, m)
    | .ok p => p.run spawn c.verbose m
  | .status store =>
    match openStore m (some store) with
    | .error message => (.failed message, m)
    | .ok records =>
      (.exited 0, m.print (Report.text (Report.executionsLines records.allExecutions)))
  | .demo => demonstrate m

end NestedBatch.CommandLine
