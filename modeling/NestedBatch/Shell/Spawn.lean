import NestedBatch.Shell.Run

/-! Running a program from outside of any shell. -/
namespace NestedBatch.Shell

def searchPath : String := "/usr/local/sbin:/usr/local/bin:/usr/sbin:/usr/bin:/sbin:/bin"

/-- The program that a name leads to. A name without a slash is looked for along the
search path. -/
def findProgram (files : Files) (name : String) : Except IoFault String :=
  let at? (full : String) : Except IoFault String :=
    match files.look full with
    | .ok (.program program) => .ok program
    | .ok _ => .error .permissionDenied
    | .error fault => .error fault
  if name.toList.contains '/' then at? name
  else if name = "" then .error .notFound
  else if Files.longestPart < name.utf8ByteSize then .error .nameTooLong
  else
    let found := (searchPath.splitOn ":").map fun d => at? (d ++ "/" ++ name)
    match found.findSome? Except.toOption with
    | some program => .ok program
    | none =>
      let isDenied : Except IoFault String → Bool
        | .error .permissionDenied => true
        | _ => false
      .error (if found.any isDenied then .permissionDenied else .notFound)

/-- An argument or a variable of this many bytes is too long for a program. -/
def longestText : Nat := 131071

/-- The fuel of a program: far more than any batch command needs. -/
def patience : Nat := 100000

/-- A machine with the streams of a new program: nothing to read, what is written is
printed, and the errors are lost. -/
def System.start (m : Machine) : System where
  machine := m
  channels := #[.void, .printed]
  printed := ""
  next := 4242
  signals := []

def Session.starter (m : Machine) : Session :=
  { number := 4241, shell := 4241, parent := 4240, vars := [], functions := .empty
    aliases := .empty, name := "", arguments := [], options := []
    streams := KeyMap.ofList [(0, 0), (1, 1), (2, 0)], here := m.files.here, mask := 18, code := 0
    substituted := 0, flow := .going, traps := .empty, trapped := none, lastJob := none
    frames := [], loops := 0, depth := 0, optionAt := (1, none), line := 1, within := none
    system := System.start m, jobs := [], lost := false }

/-- Runs a program. It sees the variables of the machine and those given to it. -/
def spawn : Spawner Machine := fun given m =>
  let settings := KeyMap.ofList (("PATH", searchPath) :: (m.environment.entries ++ given.settings))
  let texts := given.program :: given.arguments ++
    settings.entries.map fun v => v.1 ++ "=" ++ v.2
  if texts.any fun t => t.toList.contains '\x00' then (.error .nulInData, m)
  else
    match findProgram m.files given.program with
    | .error fault => (.error fault, m)
    | .ok program =>
      if texts.any fun t => longestText < t.utf8ByteSize then (.error .argumentsTooLong, m)
      else
        let octets (t : String) : String := String.ofList (Text.encode t)
        let environment := settings.entries.map fun v => (octets v.1, octets v.2)
        let run :=
          perform patience
            (.program program (octets given.program) (given.arguments.map octets) environment)
        let (outcome, after) := run.run (Session.starter m)
        let system := after.system
        (.ok outcome, system.machine.print (Text.decode system.printed.toList))

end NestedBatch.Shell
