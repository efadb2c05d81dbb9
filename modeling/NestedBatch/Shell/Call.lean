import NestedBatch.Shell.Builtin.Table

/-! What a shell is called with, and the programs that words call. -/
namespace NestedBatch.Shell

inductive ScriptSource where
  | text (script : String)
  | input
  | file (name : String)

/-- The options of a shell, its script, the script's name and its arguments. -/
def shellCall (name : String) (words : List String) :
    Except String (List Char × ScriptSource × String × List String) :=
  /- The option `c` says that the script is given as a word. -/
  match Builtin.optionWords ('c' :: Builtin.optionLetters) (words.length + 1) [] words with
  | .error e => .error e
  | .ok (letters, rest, _) =>
    let options := Builtin.turn false 'c' letters
    if letters.contains 'c' then
      match rest with
      | [] => .error "-c requires an argument"
      | [script] => .ok (options, .text script, name, [])
      | script :: name :: more => .ok (options, .text script, name, more)
    else if options.contains 's' then .ok (options, .input, name, rest)
    else
      match rest with
      | [] => .ok (Builtin.turn true 's' options, .input, name, [])
      | file :: more => .ok (options, .file file, file, more)

/-- A name that leads to a program, or the code and the reason of failing. -/
def programAt (s : Session) (name : String) : Except (Nat × String) String :=
  match s.look name with
  | .ok (.program program) => .ok program
  | .ok _ => .error (126, "Permission denied")
  | .error .notFound | .error .notDirectory => .error (127, "not found")
  | .error .nameTooLong => .error (127, "File name too long")
  | .error fault => .error (126, fault.reason.1)

/-- The program that a word calls, looked for along a path if it has no slash. -/
def programOf (s : Session) (path : Option String) (word : String) :
    Except (Nat × String) String :=
  if word.toList.contains '/' then programAt s word
  else
    match path.map (s.findAlong · word) with
    | some (.program full) => programAt s full
    | some .denied => .error (127, "Permission denied")
    | _ => .error (127, "not found")

end NestedBatch.Shell
