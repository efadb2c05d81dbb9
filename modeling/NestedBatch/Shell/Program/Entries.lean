import NestedBatch.Shell.Program.Options

/-! The programs that make and remove files and directories. Each goes on with the
next name when one fails, and tells in the end whether all went well. -/
namespace NestedBatch.Shell.Program

def forAll (step : String → Act Bool) : List String → Act Nat
  | [] => return 0
  | name :: rest => do
    let well ← step name
    let code ← forAll step rest
    return if well then code else 1

def printLine (text : String) : Act Unit := do
  let _ ← Act.write 1 (text ++ "\n").toList

def change (program action name : String) (f : Files → String → Except IoFault Files) :
    Act Bool := do
  let s ← get
  match f s.files (Text.decode name.toList) with
  | .ok files =>
    set (s.withFiles files)
    return true
  | .error fault =>
    say program (action ++ " '" ++ name ++ "': " ++ fault.reason.1)
    return false

/-! ### Making -/

def touchNames : OptionNames where
  letters := [('a', false), ('c', false), ('m', false), ('f', false), ('h', false), ('d', true),
    ('r', true), ('t', true)]
  words := [("no-create", 'c', false), ("date", 'd', true), ("reference", 'r', true),
    ("time", 'T', true), ("no-dereference", 'h', false)]
  anywhere := true

def touchOne (create : Bool) (name : String) : Act Bool := do
  let files := (← get).files
  let plain := Text.decode name.toList
  match files.look plain with
  | .ok _ => return true
  | .error .notFound =>
    if !create then return true
    else if name.endsWith "/" then
      say "touch" ("setting times of '" ++ name ++ "': No such file or directory")
      return false
    else change "touch" "cannot touch" name fun files n => files.write n ""
  | .error fault =>
    say "touch" ("cannot touch '" ++ name ++ "': " ++ fault.reason.1)
    return false

def touch (words : List String) : Act Nat :=
  withOptions "touch" touchNames 1 words fun options names => do
    if names.isEmpty then
      sayUsage "touch" "missing file operand"
      return 1
    forAll (touchOne (!given options "c")) names

def mkdirNames : OptionNames where
  letters := [('p', false), ('v', false), ('m', true), ('Z', false)]
  words := [("parents", 'p', false), ("verbose", 'v', false), ("mode", 'm', true)]
  anywhere := true

def makeOne (verbose : Bool) (name : String) : Act Bool := do
  let well ← change "mkdir" "cannot create directory" name Files.makeDirectory
  if well && verbose then printLine ("mkdir: created directory '" ++ name ++ "'")
  return well

/-- The names of the directories on the way to a name, and the name itself. -/
def waysTo (name : String) : List String :=
  let slash (s : List Char) : List Char := s.takeWhile (· = '/')
  go (name.length + 1) [] name.toList slash
where
  go : Nat → List Char → List Char → (List Char → List Char) → List String
    | 0, _, _, _ => []
    | fuel + 1, front, s, slash =>
      let slashes := slash s
      let rest := s.drop slashes.length
      let part := rest.takeWhile (· ≠ '/')
      if part.isEmpty then []
      else
        let here := front ++ slashes ++ part
        String.ofList here :: go fuel here (rest.drop part.length) slash

def makeWay (verbose : Bool) : List String → Act Bool
  | [] => return true
  | name :: rest => do
    let complain (fault : IoFault) : Act Bool := do
      say "mkdir" ("cannot create directory '" ++ name ++ "': " ++ fault.reason.1)
      return false
    match (← get).files.look (Text.decode name.toList) with
    | .ok .directory => makeWay verbose rest
    | .ok _ => complain (if rest.isEmpty then .alreadyExists else .notDirectory)
    | .error .notFound => if ← makeOne verbose name then makeWay verbose rest else return false
    | .error fault => complain fault

/-- Is the text a mode of a file, in octal or by letters? -/
def isMode (w : String) : Bool :=
  w ≠ "" && (w.toList.all (fun c => '0' ≤ c && c ≤ '7') ||
    (w.toList.all (fun c => "ugoarwxXst+-=,".toList.contains c) &&
      w.toList.any fun c => "+-=".toList.contains c))

def mkdir (words : List String) : Act Nat :=
  withOptions "mkdir" mkdirNames 1 words fun options names => do
    let verbose := given options "v"
    if names.isEmpty then
      sayUsage "mkdir" "missing operand"
      return 1
    match argumentOf options 'm' with
    | some mode =>
      if !isMode mode then
        say "mkdir" ("invalid mode '" ++ mode ++ "'")
        return 1
    | none => pure ()
    forAll (fun name =>
      if given options "p" && name ≠ "" then makeWay verbose (waysTo name)
      else makeOne verbose name) names

/-! ### Removing -/

def rmNames : OptionNames where
  letters := "dfiIrRv".toList.map (·, false)
  words := [("force", 'f', false), ("recursive", 'r', false), ("dir", 'd', false),
    ("verbose", 'v', false), ("no-preserve-root", 'n', false), ("preserve-root", 'P', false),
    ("one-file-system", 'o', false)]
  anywhere := true

/-- The names of what lies below a place, what is deeper before what it lies in. -/
def below (files : Files) : Nat → List String → String → List (String × Bool)
  | 0, _, _ => []
  | fuel + 1, place, name =>
    (files.namesBelow place).flatMap fun part =>
      let inside := place ++ [part]
      let full := name ++ "/" ++ String.ofList (Text.encode part)
      if files.found? inside = some .directory then
        below files fuel inside full ++ [(full, true)]
      else [(full, false)]

structure Removal where
  force : Bool
  whole : Bool
  directories : Bool
  verbose : Bool

def removedLine (name : String) (isDirectory : Bool) : Act Unit :=
  printLine ((if isDirectory then "removed directory '" else "removed '") ++ name ++ "'")

def removeOne (r : Removal) (name : String) : Act Bool := do
  let plain := Text.decode name.toList
  let files := (← get).files
  let last := ((name.splitOn "/").filter (· ≠ "")).getLast?
  match files.look plain with
  | .ok .directory =>
    if r.whole then
      if last = some "." ∨ last = some ".." then
        say "rm" ("refusing to remove '.' or '..' directory: skipping '" ++ name ++ "'")
        return false
      else if last = none then
        say "rm" ("it is dangerous to operate recursively on '" ++ name ++ "'")
        say "rm" "use --no-preserve-root to override this failsafe"
        return false
      else
        let place := ((files.locate plain).toOption.map Target.place).getD []
        let inside := below files 4096 place name
        let well ← change "rm" "cannot remove" name Files.removeTree
        if well && r.verbose then
          for (n, isDirectory) in inside do
            removedLine n isDirectory
          removedLine name true
        return well
    else if r.directories then
      let well ← change "rm" "cannot remove" name Files.removeDirectory
      if well && r.verbose then removedLine name true
      return well
    else
      say "rm" ("cannot remove '" ++ name ++ "': Is a directory")
      return false
  | .ok _ =>
    let well ← change "rm" "cannot remove" name Files.removeFile
    if well && r.verbose then removedLine name false
    return well
  | .error fault =>
    if r.force && (fault = .notFound || fault = .notDirectory) then return true
    else
      say "rm" ("cannot remove '" ++ name ++ "': " ++ fault.reason.1)
      return false

def rm (words : List String) : Act Nat :=
  withOptions "rm" rmNames 1 words fun options names => do
    let asks := ((options.filter fun o => o.1 = 'f' || o.1 = 'i').getLast?).map (·.1) = some 'i'
    let force := given options "f" && !asks
    if names.isEmpty && !force then
      sayUsage "rm" "missing operand"
      return 1
    let r : Removal := ⟨force, given options "rR", given options "d", given options "v"⟩
    forAll (removeOne r) (if asks then [] else names)

def rmdirNames : OptionNames where
  letters := [('p', false), ('v', false)]
  words := [("parents", 'p', false), ("verbose", 'v', false),
    ("ignore-fail-on-non-empty", 'i', false)]
  anywhere := true

def removeEmpty (verbose lenient : Bool) : List String → Act Bool
  | [] => return true
  | name :: rest => do
    if verbose then printLine ("rmdir: removing directory, '" ++ name ++ "'")
    let s ← get
    match s.files.removeDirectory (Text.decode name.toList) with
    | .ok files =>
      set (s.withFiles files)
      removeEmpty verbose lenient rest
    | .error fault =>
      if lenient && fault = .notEmpty then return true
      else
        say "rmdir" ("failed to remove '" ++ name ++ "': " ++ fault.reason.1)
        return false

def rmdir (words : List String) : Act Nat :=
  withOptions "rmdir" rmdirNames 1 words fun options names => do
    if names.isEmpty then
      sayUsage "rmdir" "missing operand"
      return 1
    forAll (fun name =>
      let way := if given options "p" then (waysTo name).reverse else [name]
      removeEmpty (given options "v") (given options "i") way) names

end NestedBatch.Shell.Program
