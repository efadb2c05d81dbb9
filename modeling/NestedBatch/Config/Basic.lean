import NestedBatch.Job.Command
import NestedBatch.Launch
import NestedBatch.Text.Blank

/-! What is to be run: the names of parent and step, the child's command, and
where the records are kept. -/
namespace NestedBatch

structure ChildConfig where
  name : String
  /-- The program and its arguments. -/
  command : List String
  restartable : Bool
  /-- Codes of the process that count as success, still as text. -/
  exitCodes : KeyMap String String
  deriving DecidableEq

structure RunConfig where
  parentJob : String
  stepName : String
  /-- The context keys that are handed to the child. -/
  keys : List String
  inheritAll : Bool
  launcher : Launcher
  /-- The file of the records; without one they are only kept in memory. -/
  store : Option String
  child : ChildConfig
  deriving DecidableEq

namespace ChildConfig

def default : ChildConfig := ⟨"child", [], true, .empty⟩

structure CodeFault where
  code : String
  fault : NumeralFault

def CodeFault.message (f : CodeFault) : String :=
  "invalid process exit code '" ++ f.code ++ "': " ++ f.fault.message

/-- Reads codes in the order of their texts; the last of several texts for one number counts. -/
def readCodes (codes : KeyMap Int String) :
    List (String × String) → Except CodeFault (KeyMap Int String)
  | [] => .ok codes
  | (code, name) :: rest =>
    match Numeral.read .int (Text.trimBlanks code.toList) with
    | .error fault => .error ⟨code, fault⟩
    | .ok n => readCodes (codes.insert n name) rest

def parsedCodes (c : ChildConfig) : Except CodeFault (KeyMap Int String) :=
  readCodes .empty c.exitCodes.entries

end ChildConfig

inductive CommandFault where
  | noProgram
  | badCode (fault : ChildConfig.CodeFault)

def CommandFault.message : CommandFault → String
  | .noProgram => "command for job must not be empty"
  | .badCode fault => fault.message

/-- The job of a child. That there is a command is looked at before its codes. -/
def ChildConfig.toJob (c : ChildConfig) : Except CommandFault CommandJob :=
  match c.command with
  | [] => .error .noProgram
  | program :: arguments =>
    match c.parsedCodes with
    | .error fault => .error (.badCode fault)
    | .ok codes => .ok ⟨c.name, program, arguments, c.restartable, codes⟩

namespace RunConfig

def default : RunConfig := ⟨"parent", "nested", [], false, .sameThread, none, .default⟩

instance : Inhabited RunConfig := ⟨default⟩

end RunConfig

end NestedBatch
