import NestedBatch.Config.Basic
import NestedBatch.Machine.Basic
import NestedBatch.Toml.Reader

/-! Reading a configuration. What is left out has its default; names that are
not known are passed over. -/
namespace NestedBatch

namespace Toml

def asText : Toml → Option String
  | .string s => some s
  | _ => none

def asBool : Toml → Option Bool
  | .boolean b => some b
  | _ => none

def asTexts : Toml → Option (List String)
  | .array items => items.mapM asText
  | _ => none

/-- The name under which a date or time gives its text when it is read as a table. -/
def timeName : String := "$__toml_private_datetime"

def asTextMap : Toml → Option (KeyMap String String)
  | .time text => some (.ofList [(timeName, text)])
  | .table _ fields => (fields.mapM fun f => (asText f.2).map (f.1, ·)).map .ofList
  | _ => none

def isHollow : Toml → Bool
  | .array items => items.isEmpty
  | .table _ fields => fields.isEmpty
  | _ => false

/-- A name out of a list of names: a text, or a table with that one name over nothing. -/
def asName : Toml → Option String
  | .string s => some s
  | .table _ [(name, v)] => if v.isHollow then some name else none
  | _ => none

variable {α : Type}

/-- A field with a value of its own where it is left out. -/
def fieldOr (fields : Fields) (name : String) (default : α) (read : Toml → Option α) : Option α :=
  match lookupKey name fields with
  | none => some default
  | some v => read v

end Toml

namespace ChildConfig

open Toml

def fieldNames : List String := ["name", "command", "restartable", "exit_codes"]

def ofFields? (fields : Fields) : Option ChildConfig := do
  let name ← fieldOr fields "name" default.name asText
  let command ← fieldOr fields "command" default.command asTexts
  let restartable ← fieldOr fields "restartable" default.restartable asBool
  let exitCodes ← fieldOr fields "exit_codes" default.exitCodes asTextMap
  some ⟨name, command, restartable, exitCodes⟩

/-- Reads a child: a table, or an array of its fields by their places. A date or
time has none of the fields. -/
def ofToml? : Toml → Option ChildConfig
  | .time _ => some default
  | .table _ fields => ofFields? fields
  | .array items => ofFields? (fieldNames.zip items)
  | .tables all => ofFields? (fieldNames.zip (all.map (.table .header)))
  | _ => none

end ChildConfig

namespace RunConfig

open Toml

def launcherOf? (name : String) : Option Launcher :=
  if name = "sync" then some .sameThread
  else if name = "task" then some .task
  else none

def ofFields? (fields : Fields) : Option RunConfig := do
  let parentJob ← fieldOr fields "parent_job" default.parentJob asText
  let stepName ← fieldOr fields "step_name" default.stepName asText
  let keys ← fieldOr fields "keys" default.keys asTexts
  let inheritAll ← fieldOr fields "use_all_parent_parameters" default.inheritAll asBool
  let launcher ← fieldOr fields "launcher" default.launcher fun v => v.asName.bind launcherOf?
  let store ← fieldOr fields "store" default.store fun v => v.asText.map some
  let child ← fieldOr fields "child" default.child ChildConfig.ofToml?
  some ⟨parentJob, stepName, keys, inheritAll, launcher, store, child⟩

def ofText? (text : String) : Option RunConfig := (Toml.read text).bind ofFields?

inductive Fault where
  | unreadable (path : String) (fault : IoFault)
  /-- What is wrong with the text is not told. -/
  | malformed (path : String)

/-- What stands for the fault of a text that is no configuration. -/
def textFault : String := "<toml>"

def Fault.message : Fault → String
  | .unreadable path fault => "reading " ++ path ++ ": " ++ fault.message
  | .malformed path => "parsing " ++ path ++ ": " ++ textFault

def storeVariable : String := "JOBSTEP_STORE"

/-- What the environment says has the last word; an empty variable says nothing. -/
def underEnvironment (c : RunConfig) (environment : KeyMap String String) : RunConfig :=
  match environment.get? storeVariable with
  | some store => if store = "" then c else { c with store := some store }
  | none => c

/-- Loads a configuration. A file that is not there stands for all defaults. -/
def load (m : Machine) (path : String) : Except Fault RunConfig :=
  if m.files.exists? path then
    match m.files.readText path with
    | .error fault => .error (.unreadable path fault)
    | .ok text =>
      match ofText? text with
      | some c => .ok (c.underEnvironment m.environment)
      | none => .error (.malformed path)
  else .ok (default.underEnvironment m.environment)

end RunConfig

end NestedBatch
