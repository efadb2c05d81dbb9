import NestedBatch.Shell.Compound
import NestedBatch.Shell.Named
import NestedBatch.Shell.Simple
import NestedBatch.Shell.Started

/-! Running shell commands. Fuel bounds the nesting of tasks; a script that uses it all up
is stopped as by the limit of time that a system sets. -/
namespace NestedBatch.Shell

namespace Performer

/-- Runs a command, and the traps of the signals that come before it or with it. -/
def stepCommand (p : Performer) (tested : Bool) (command : Command) : Act Unit := do
  p.runTraps
  let s ← get
  if !s.isGoing || s.has 'n' then return
  match command with
  | .located line command =>
    set { s with line }
    p.run tested command
  | .simple assignments words redirects =>
    p.runSimple tested assignments words redirects
    check tested
  | .sequence first second =>
    p.run tested first
    p.run tested second
  | .both first second =>
    p.run true first
    let s ← get
    if s.isGoing && s.code = 0 then p.run tested second
  | .either first second =>
    p.run true first
    let s ← get
    if s.isGoing && s.code ≠ 0 then p.run tested second
  | .negated command =>
    p.run true command
    let s ← get
    if s.isGoing then Act.setCode (if s.code = 0 then 1 else 0)
  | .pipe stages =>
    Act.settle (← p.runStages tested none stages)
    check tested
  | .background command => startJob command
  | .choice test yes no =>
    p.run true test
    let s ← get
    if s.isGoing then
      match s.code, no with
      | 0, _ => p.run tested yes
      | _, some no => p.run tested no
      | _, none => Act.setCode 0
  | .loop whileTrue test body => inLoop (p.runLoop tested whileTrue test body mostRounds 0)
  | .forEach name words body =>
    let values ← p.fillWords false words
    if (← get).isGoing then inLoop (p.runEach tested name body 0 values)
  | .branch subject branches =>
    let text := Mark.text (← p.fillWord false false subject)
    p.runBranch tested text branches
  | .subshell body redirects =>
    let opened ← p.fillRedirects redirects
    if (← get).isGoing then
      let outcome ← Act.inProcess do
        if ← p.openAll opened then p.run tested body
        else modify fun s => { s with code := 2, flow := .ended }
        p.close
      Act.settle outcome
      check tested
  | .redirected body redirects =>
    let opened ← p.fillRedirects redirects
    if (← get).isGoing then
      if ← p.openAll opened then p.run tested body
      else
        Act.setCode 2
        check tested
      Act.restore s.streams opened
  | .define name body =>
    set { s with functions := s.functions.insert name body, code := 0 }
  p.runTraps

/-- Carries out a task, given a way to carry out those that it leads to. -/
def step (p : Performer) : {α : Type} → Task α → Act α
  | _, .command tested command => p.stepCommand tested command
  | _, .lines tested text last code => p.stepLines tested text last code
  | _, .traps => p.stepTraps
  | _, .close => p.stepClose
  | _, .named tested functions name arguments => p.stepNamed tested functions name arguments
  | _, .program program name arguments environment =>
    p.stepProgram program name arguments environment
  | _, .parts filling word => p.stepParts filling word

end Performer

def perform : Nat → {α : Type} → Task α → Act α
  | 0, _, task => task.giveUp
  | fuel + 1, _, task => Performer.step ⟨perform fuel⟩ task

end NestedBatch.Shell
