import NestedBatch.Shell.Filling
import NestedBatch.Shell.Process

/-! The parts of a script whose number and nesting nothing bounds, as tasks. A task is
carried out in one step, which is given a way to carry out the tasks that it leads to. A
command is `tested` if its failure is looked at, and so does not end a script that ends at
failures. -/
namespace NestedBatch.Shell

/-- A part of a script that may lead to others. The index is the type of what it gives. -/
inductive Task : Type → Type where
  | command (tested : Bool) (command : Command) : Task Unit
  /-- The lines that are left of a text. `last` is the number of its last line, and `code`
  that of the line before. -/
  | lines (tested : Bool) (text : List Char) (last code : Nat) : Task Unit
  /-- The traps of the signals that have come. -/
  | traps : Task Unit
  /-- What a process does at its end: its last trap, and the jobs that still wait. -/
  | close : Task Unit
  /-- A command by its name, which may be that of a function. -/
  | named (tested functions : Bool) (name : String) (arguments : List String) : Task Unit
  | program (program name : String) (arguments : List String)
      (environment : List (String × String)) : Task ProcessOutcome
  /-- The parts of a word, to be filled in. -/
  | parts (filling : Filling) (word : Word) : Task (List Mark)

/-- What a process that has used up its time does in place of a task. -/
def Task.giveUp : {α : Type} → Task α → Act α
  | _, .command .. | _, .lines .. | _, .traps | _, .close | _, .named .. =>
    Act.giveUp
  | _, .program .. => do
    Act.giveUp
    return .exited 0
  | _, .parts .. => do
    Act.giveUp
    return []

structure Performer where
  perform {α : Type} : Task α → Act α

namespace Performer

def run (p : Performer) (tested : Bool) (command : Command) : Act Unit :=
  p.perform (.command tested command)

def runLines (p : Performer) (tested : Bool) (text : List Char) (last code : Nat) : Act Unit :=
  p.perform (.lines tested text last code)

def runText (p : Performer) (tested : Bool) (text : List Char) : Act Unit :=
  p.runLines tested text (text.count '\n' + 1) 0

def runTraps (p : Performer) : Act Unit := do
  let s ← get
  unless s.isOver || s.system.signals.isEmpty do p.perform .traps

def close (p : Performer) : Act Unit := p.perform .close

/-- Runs a command by its name: a function, a builtin, or a program. -/
def runNamed (p : Performer) (tested functions : Bool) (name : String)
    (arguments : List String) : Act Unit :=
  p.perform (.named tested functions name arguments)

def runProgram (p : Performer) (program name : String) (arguments : List String)
    (environment : List (String × String)) : Act ProcessOutcome :=
  p.perform (.program program name arguments environment)

def fillParts (p : Performer) (f : Filling) (word : Word) : Act (List Mark) :=
  p.perform (.parts f word)

end Performer

end NestedBatch.Shell
