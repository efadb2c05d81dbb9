import NestedBatch.Shell.Call
import NestedBatch.Shell.Jobs
import NestedBatch.Shell.Redirection

/-! Commands by their names: functions, builtin commands that run others, and programs. -/
namespace NestedBatch.Shell.Performer

def runFunction (p : Performer) (tested : Bool) (body : Command) (arguments : List String) :
    Act Unit := do
  let s ← get
  if Session.deepest ≤ s.depth then
    let most := Numeral.natText Session.deepest
    Act.fail ("Maximum function recursion depth (" ++ most ++ ") reached")
  else
    set { s with arguments, depth := s.depth + 1, loops := 0, optionAt := (1, none) }
    p.run tested body
    modify fun t =>
      { t with
        arguments := s.arguments
        depth := s.depth
        loops := s.loops
        optionAt := s.optionAt
        flow := if t.flow = .returning then .going else t.flow }

def runFile (p : Performer) (file : String) : Attempt Nat := do
  let s ← get
  let isText (name : String) : Bool :=
    match s.look name with
    | .ok (.file _) | .ok (.program _) => true
    | _ => false
  let name :=
    if file.toList.contains '/' then some file
    else
      let path := ((s.value? "PATH").getD "").splitOn ":"
      (path.map fun d => if d = "" then file else d ++ "/" ++ file).find? isText
  match name with
  | none => throw (file ++ ": not found")
  | some name =>
    match s.look name with
    | .error fault => throw (openFault false name fault)
    | .ok found =>
      let text :=
        match found with
        | .file content => Text.octetsOf content
        | _ => []
      Act.runWithin name (p.runText false text)
      modify fun t => if t.flow = .returning then { t with flow := .going } else t
      return (← get).code

/-- Runs a program in place of the script, and gives its code. -/
def runInstead (p : Performer) (name : String) (arguments : List String) : Act Nat := do
  let s ← get
  match programOf s (s.value? "PATH") name with
  | .error (code, reason) =>
    Act.complainOf (some "exec") (name ++ ": " ++ reason)
    Act.setFlow .ended
    return code
  | .ok program =>
    let outcome ← p.runProgram program name arguments s.vars.environment
    modify fun t => { t with traps := t.traps.filter fun p => p.1 ≠ 0 }
    match outcome with
    | .exited code =>
      Act.setFlow .ended
      return code
    | .killed n =>
      Act.setFlow (.killed n)
      return 128 + n

def runPlain (p : Performer) (tested : Bool) (arguments : List String) : Attempt Nat := do
  let (options, words) ← Attempt.plainOptions ['p', 'v', 'V'] arguments
  match words with
  | [] => return 0
  | name :: rest =>
    if options.any fun o => o.1 = 'v' then Builtin.describe false [name]
    else if options.any fun o => o.1 = 'V' then Builtin.describe true [name]
    else
      p.runNamed tested false name rest
      if (← get).flow = .failed then Act.setFlow .going
      return (← get).code

def runBuiltin (p : Performer) (tested : Bool) (name : String) (arguments : List String) :
    Attempt Nat := do
  let words := if arguments.head? = some "--" then arguments.drop 1 else arguments
  match Builtin.find? name with
  | some builtin => builtin arguments
  | none =>
    if name = "eval" then
      Act.runWithin name (p.runText tested (" ".intercalate words).toList)
      return (← get).code
    else if name = "." then
      match words with
      | [] => return 0
      | file :: _ => p.runFile file
    else if name = "exec" then
      match words with
      | [] => return 0
      | name :: arguments => p.runInstead name arguments
    else if name = "command" then p.runPlain tested arguments
    else if name = "wait" then
      let (_, words) ← Attempt.plainOptions [] arguments
      p.waitFor words
    else return 0

/-- Runs a command by its name: a function, a builtin, or a program. -/
def stepNamed (p : Performer) (tested functions : Bool) (name : String)
    (arguments : List String) : Act Unit := do
  let s ← get
  match if functions then s.functions.get? name else none with
  | some body => p.runFunction tested body arguments
  | none =>
    if isBuiltin name then
      set { s with lost := false }
      match ← (p.runBuiltin tested name arguments).run with
      | .ok code =>
        let t ← get
        set { t with lost := false }
        if t.lost then Act.complainOf (some name) (name ++ ": I/O error")
        let code := if t.lost then max code 1 else code
        unless t.isOver && t.flow ≠ .ended do Act.setCode code
      | .error text =>
        Act.complainOf (some name) text
        Act.setCode 2
        if isSpecialCommand name && functions then Act.setFlow .failed
    else
      match programOf s (s.value? "PATH") name with
      | .error (code, reason) =>
        Act.complain (name ++ ": " ++ reason)
        Act.setCode code
      | .ok program =>
        modify fun s => s.freeSlot.2
        Act.settle (← p.runProgram program name arguments s.vars.environment)

end NestedBatch.Shell.Performer
