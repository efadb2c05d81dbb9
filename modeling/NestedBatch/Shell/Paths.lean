import NestedBatch.Files.Basic
import NestedBatch.Shell.Fields
import NestedBatch.Text.Octets

/-! The names of files that a field stands for. -/
namespace NestedBatch.Shell.Paths

def parts : Field → List Field
  | [] => [[]]
  | p :: rest =>
    match parts rest with
    | [] => [[p]]
    | first :: more => if p.1 = '/' then [] :: first :: more else (p :: first) :: more

/-- The entries of a directory that a part matches. A name that starts with a dot
has to be asked for. -/
def entries (files : Files) (directory : List Char) (part : Field) : List (List Char) :=
  let name := if directory.isEmpty then "." else Text.decode directory
  match files.locate name with
  | .error _ => []
  | .ok t =>
    if files.found? t.place ≠ some .directory then []
    else
      let (p, _) := Pattern.ofMarked part
      let dotted := (Pattern.unescaped part).head?.map (·.1) = some '.'
      let names := (files.namesBelow t.place).map Text.encode
      let names := if dotted then ['.'] :: ['.', '.'] :: names else names
      names.filter fun n => p.covers n && (dotted || n.head? ≠ some '.')

/-- Goes on with the parts of a field from the names that the parts so far stand for. -/
def extend (files : Files) (found : List (List Char)) : List Field → List (List Char)
  | [] => found
  | part :: rest =>
    let (_, active) := Pattern.ofMarked part
    let text := (Pattern.unescaped part).map (·.1)
    let next := found.flatMap fun front =>
      let names :=
        if active then (entries files front part).map (front ++ ·) else [front ++ text]
      if rest.isEmpty then names else names.map (· ++ ['/'])
    let kept := next.filter fun n => n.isEmpty || files.exists? (Text.decode n)
    extend files kept rest

/-- The names that a field stands for, in order, or its own text if there are none. -/
def expand (files : Files) (f : Field) : List String :=
  let own := String.ofList (f.map (·.1))
  let ps := parts f
  if !ps.any fun p => (Pattern.ofMarked p).2 then [own]
  else
    let names := (extend files [[]] ps).map String.ofList
    if names.isEmpty then [own] else names.mergeSort fun a b => a ≤ b

end NestedBatch.Shell.Paths
