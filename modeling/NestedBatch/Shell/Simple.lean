import NestedBatch.Shell.Words

/-! Simple commands: assignments and redirections around a command by its name. -/
namespace NestedBatch.Shell.Performer

/-- Sets variables; those of a command alone are put back afterwards. -/
def runAssignments (p : Performer) (kept exported : Bool) : List (String × Word) → Act Unit
  | [] => return
  | (name, w) :: rest => do
    let value := String.ofList (Mark.text (← p.fillWord false true w))
    if (← get).isGoing then
      if kept then Act.keepVariable name
      Act.assign name value
      if kept || exported then
        let _ ← Act.putVariable name fun v => { v with exported := true }
      p.runAssignments kept exported rest

def traced (assignments : List (String × Word)) : Act (List String) := do
  let s ← get
  return assignments.map fun a => a.1 ++ "=" ++ (s.value? a.1).getD ""

def trace (streams : KeyMap Nat Nat) (assigned words : List String) : Act Unit := do
  let s ← get
  let line := (s.value? "PS4").getD "" ++ " ".intercalate (assigned ++ words) ++ "\n"
  match (streams.get? 2).map fun n => s.system.write n line.toList with
  | some (.ok system) => set { s with system }
  | _ => return

/-- Runs a simple command: words are filled in, redirections opened and variables
set, and then the command is looked up by its first word. -/
def runSimple (p : Performer) (tested : Bool) (assignments : List (String × Word))
    (words : List Word) (redirects : List Redirect) : Act Unit := do
  modify fun s => { s with substituted := 0 }
  let words ← p.fillCommand words
  let opened ← p.fillRedirects redirects
  let s ← get
  if !s.isGoing then return
  let name := words.head?
  let special := name.any fun n => isSpecialCommand n && !s.functions.contains n
  let keeps := name = some "exec" && special
  let isReady ← p.openAll opened
  if !isReady then
    Act.setCode 2
    if special then Act.setFlow .failed
    Act.restore s.streams opened
  else
    match words with
    | [] =>
      p.runAssignments false false assignments
      let t ← get
      if t.isGoing then
        if t.has 'x' then trace s.streams (← traced assignments) []
        Act.setCode t.substituted
      Act.restore s.streams opened
    | name :: arguments =>
      unless special do Act.openFrame
      p.runAssignments (!special) (keeps && !arguments.isEmpty) assignments
      let t ← get
      if t.isGoing then
        if t.has 'x' then trace s.streams (← traced assignments) words
        p.runNamed tested true name arguments
      unless special do Act.closeFrame
      unless keeps do Act.restore s.streams opened

end NestedBatch.Shell.Performer
