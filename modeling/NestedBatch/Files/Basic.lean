import NestedBatch.Files.Fault
import NestedBatch.KeyMap

/-! The files of a working directory, and the few places outside of it that
every machine has. A place is the list of names on the way to it from the root. -/
namespace NestedBatch

instance decidableEqBytes : DecidableEq ByteArray := ByteArray.decEq

inductive FileEntry where
  | file (content : ByteArray)
  | directory
  deriving DecidableEq

/-- The entries below the working directory, by their names from there, and the
place that relative names start from. -/
structure Files where
  entries : KeyMap String FileEntry
  here : List String
  deriving DecidableEq

inductive Found where
  | file (content : ByteArray)
  | directory
  /-- Takes all that is written, and has nothing to read. -/
  | sink
  /-- Has no room for anything that is written. -/
  | full
  | program (name : String)
  deriving DecidableEq

structure Target where
  place : List String
  /-- Is the last part the name of an entry, and not a dot or two? -/
  plain : Bool
  /-- Does a slash follow the last part? -/
  slash : Bool

namespace Files

def home : List String := ["tmp", "batch"]

def empty : Files := ⟨.empty, home⟩

instance : Inhabited Files := ⟨empty⟩

def joined (parts : List String) : String := "/".intercalate parts

def absolute (place : List String) : String := "/" ++ joined place

def below? (place : List String) : Option (List String) :=
  if home.isPrefixOf place then some (place.drop home.length) else none

def knownDirectories : List (List String) :=
  [[], ["tmp"], ["usr"], ["usr", "bin"], ["usr", "lib"], ["usr", "sbin"], ["usr", "local"],
   ["usr", "local", "bin"], ["usr", "share"], ["etc"], ["dev"], ["var"], ["var", "tmp"], ["home"],
   ["root"], ["opt"], ["proc"], ["sys"], ["run"], ["mnt"], ["srv"]]

/-- Directories in the root that stand for those of the same name below `usr`. -/
def linkedNames : List String := ["bin", "lib", "sbin"]

def programNames : List String :=
  ["sh", "echo", "printf", "cat", "env", "grep", "sort", "touch", "test", "[", "rm", "mkdir",
   "rmdir", "true", "false", "sleep"]

def found? (f : Files) (place : List String) : Option Found :=
  match below? place with
  | some [] => some .directory
  | some parts =>
    (f.entries.get? (joined parts)).map fun
      | .file content => .file content
      | .directory => .directory
  | none =>
    if knownDirectories.contains place then some .directory
    else
      match place with
      | ["dev", "null"] => some .sink
      | ["dev", "full"] => some .full
      | ["usr", "bin", name] => if programNames.contains name then some (.program name) else none
      | _ => none

/-- The longest name of an entry, and the longest name with all directories, in bytes. -/
def longestPart : Nat := 255
def longestName : Nat := 4095

/-- Goes along the parts of a name. Before each part a directory has to be there. -/
def walk (f : Files) (place : List String) : List String → Except IoFault (List String)
  | [] => .ok place
  | part :: rest =>
    match f.found? place with
    | none => .error .notFound
    | some .directory =>
      if part = "." then walk f place rest
      else if part = ".." then walk f place.dropLast rest
      else if longestPart < part.utf8ByteSize then .error .nameTooLong
      else if place.isEmpty && linkedNames.contains part then walk f ["usr", part] rest
      else walk f (place ++ [part]) rest
    | some _ => .error .notDirectory

def locate (f : Files) (name : String) : Except IoFault Target :=
  if name.toList.contains '\x00' then .error .nulInName
  else if name = "" then .error .notFound
  else if longestName < name.utf8ByteSize then .error .nameTooLong
  else
    let parts := (name.splitOn "/").filter (· ≠ "")
    let last := parts.getLast?.getD "."
    let start := if name.startsWith "/" then [] else f.here
    (f.walk start parts).map (⟨·, last ≠ "." && last ≠ "..", name.endsWith "/"⟩)

/-- What a name stands for. A slash at its end asks for a directory. -/
def look (f : Files) (name : String) : Except IoFault Found := do
  let t ← f.locate name
  match f.found? t.place with
  | none => .error .notFound
  | some .directory => .ok .directory
  | some entry => if t.slash then .error .notDirectory else .ok entry

def exists? (f : Files) (name : String) : Bool := (f.look name).toOption.isSome

def read (f : Files) (name : String) : Except IoFault ByteArray := do
  match ← f.look name with
  | .directory => .error .isDirectory
  | .file content => .ok content
  | _ => .ok .empty

def readText (f : Files) (name : String) : Except IoFault String := do
  match String.fromUTF8? (← f.read name) with
  | some text => .ok text
  | none => .error .notText

def put (f : Files) (parts : List String) (e : FileEntry) : Files :=
  { f with entries := f.entries.insert (joined parts) e }

/-- The place of a file that is to be written. It need not be there yet, but its
directory has to. -/
def writable (f : Files) (name : String) : Except IoFault (List String) := do
  let t ← f.locate name
  if !t.plain || t.slash then .error .isDirectory
  else
    match f.found? t.place with
    | some .directory => .error .isDirectory
    | some (.program _) => .error .permissionDenied
    | some _ => .ok t.place
    | none =>
      if f.found? t.place.dropLast ≠ some .directory then .error .notFound
      else if (below? t.place).isSome then .ok t.place
      else .error .permissionDenied

def writeAt (f : Files) (place : List String) (content : ByteArray) : Except IoFault Files :=
  if f.found? place = some .full then if content.isEmpty then .ok f else .error .noSpace
  else
    match below? place with
    | some parts => .ok (f.put parts (.file content))
    | none => .ok f

def write (f : Files) (name text : String) : Except IoFault Files := do
  f.writeAt (← f.writable name) text.toUTF8

def makeDirectory (f : Files) (name : String) : Except IoFault Files := do
  let t ← f.locate name
  match f.found? t.place with
  | some _ => .error .alreadyExists
  | none =>
    match below? t.place with
    | some parts => .ok (f.put parts .directory)
    | none =>
      if f.found? t.place.dropLast = some .directory then .error .permissionDenied
      else .error .notFound

def drop (f : Files) (parts : List String) : Files :=
  let name := joined parts
  { f with entries := f.entries.filter fun e => e.1 ≠ name && !e.1.startsWith (name ++ "/") }

def removable (t : Target) : Except IoFault (List String) :=
  match below? t.place with
  | some [] => .error .busy
  | some parts => .ok parts
  | none => .error .permissionDenied

def removeFile (f : Files) (name : String) : Except IoFault Files := do
  match ← f.look name with
  | .directory => .error .isDirectory
  | _ => return f.drop (← removable (← f.locate name))

/-- Removes a directory with all that lies below it, or a file. -/
def removeTree (f : Files) (name : String) : Except IoFault Files := do
  let _ ← f.look name
  return f.drop (← removable (← f.locate name))

def namesBelow (f : Files) (place : List String) : List String :=
  match below? place with
  | some parts =>
    let front := if parts.isEmpty then "" else joined parts ++ "/"
    f.entries.entries.filterMap fun e =>
      if e.1.startsWith front then
        let rest := e.1.toList.drop front.length
        if rest.contains '/' then none else some (String.ofList rest)
      else none
  | none =>
    (knownDirectories.filter fun d => d.dropLast = place && !d.isEmpty).filterMap List.getLast?

def removeDirectory (f : Files) (name : String) : Except IoFault Files := do
  match ← f.look name with
  | .directory =>
    let t ← f.locate name
    let parts ← removable t
    if (f.namesBelow t.place).isEmpty then .ok (f.drop parts) else .error .notEmpty
  | _ => .error .notDirectory

def enter (f : Files) (name : String) : Except IoFault Files := do
  match ← f.look name with
  | .directory => return { f with here := (← f.locate name).place }
  | _ => .error .notDirectory

/-- Files an entry under a name, with all the directories above it. -/
def place (f : Files) (name : String) (e : FileEntry) : Files :=
  let parts := (name.splitOn "/").filter fun p => p ≠ "" && p ≠ "."
  let above := (List.range parts.length).filterMap fun n =>
    if n = 0 then none else some (parts.take n)
  let f := above.foldl (fun f p =>
    if (f.entries.get? (joined p)).isSome then f else f.put p .directory) f
  if parts.isEmpty then f else f.put parts e

end Files

end NestedBatch
