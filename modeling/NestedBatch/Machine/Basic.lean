import NestedBatch.Files.Basic
import NestedBatch.Records.Json
import NestedBatch.Repository

/-! The machine that runs happen on: its files, its clock, its environment, and
what has been printed. -/
namespace NestedBatch

/-- One run of the body of a scripted job: which job it was, how often it has
run, and how it found its execution. -/
structure Performance where
  script : String
  job : String
  attempt : Nat
  execution : Nat
  status : Status
  parameters : Parameters

structure Machine where
  files : Files
  /-- What has been printed so far. -/
  output : String
  environment : KeyMap String String
  clock : Instant
  /-- The runs of scripted jobs, oldest first. -/
  performances : List Performance

namespace Machine

/-- A machine with the given files and variables, at the start of 2024. -/
def boot (files : Files) (environment : KeyMap String String) : Machine where
  files := files
  output := ""
  environment := environment
  clock := (Instant.of? 1704067200 0).getD .epoch
  performances := []

def print (m : Machine) (text : String) : Machine := { m with output := m.output ++ text }

def printLine (m : Machine) (text : String) : Machine := m.print (text ++ "\n")

def now (m : Machine) : Instant × Machine :=
  (m.clock, { m with clock := m.clock.plusMillis 1 })

/-- Saves records to a file; without a file they are only kept in memory. -/
def save (store : Option String) (records : Records) (m : Machine) : Option IoFault × Machine :=
  match store with
  | none => (none, m)
  | some name =>
    match m.files.write name records.text with
    | .error fault => (some fault, m)
    | .ok files => (none, { m with files })

def host (store : Option String) : Host Machine := ⟨now, save store⟩

/-- Reads the records that a file holds; a file that is not there holds none. -/
def openRecords (m : Machine) (store : String) : Except BatchError Records :=
  if m.files.exists? store then
    match m.files.readText store with
    | .error fault => .error (.io fault)
    | .ok text =>
      match Records.ofText? text with
      | some records => .ok records
      | none => .error .json
  else .ok .empty

end Machine

end NestedBatch
