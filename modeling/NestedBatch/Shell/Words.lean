import NestedBatch.Shell.Paths
import NestedBatch.Shell.Redirection
import NestedBatch.Shell.Task

/-! Filling in words: parameters, the output of commands, sums and the directories of
users, and the fields that come of it all. -/
namespace NestedBatch.Shell.Performer

def fillWord (p : Performer) (full assigned : Bool) (w : Word) : Act (List Mark) := do
  match w with
  | .literal text false :: rest =>
    let home := (← get).value? "HOME"
    let isWhole := assigned && (assignment? w).isSome
    let name := if isWhole then text.takeWhile (· ≠ '=') ++ ['='] else []
    let value := text.drop name.length
    let front :=
      Mark.ofText false .fixed name ++
        tildeMarks home assigned rest.isEmpty (value.length + 1) true value
    return front ++ (← p.fillParts ⟨full, false⟩ rest)
  | w => p.fillParts ⟨full, false⟩ w

def fillInner (p : Performer) (full quoted : Bool) (w : Word) : Act (List Mark) := do
  let f : Filling := ⟨full, !quoted⟩
  match w with
  | .literal ('~' :: text) false :: rest =>
    if quoted then p.fillParts f w
    else
      let home := (← get).value? "HOME"
      let (marks, text) := homeMarks home false rest.isEmpty ('~' :: text)
      return marks ++ (← p.fillParts f (.literal text false :: rest))
  | w => p.fillParts f w

/-- Ends the script, since it asks for a parameter that has no value. -/
def failUnset (name : String) : Act (List Mark) := do
  Act.fail (name ++ ": parameter not set")
  return []

def fillParameter (p : Performer) (f : Filling) (name : String) (use : Use) (quoted : Bool) :
    Act (List Mark) := do
  let s ← get
  let isList := name = "@" || name = "*"
  let value ← if isList then (do return some (← Act.joinedArguments)) else Act.parameter? name
  let separate := isList && f.full && (!quoted || name = "@")
  let shown : List Mark :=
    if !separate then f.marks quoted (value.getD "").toList
    else if s.arguments.isEmpty then []
    else argumentMarks quoted (argumentText s.arguments)
  let missing (emptyToo : Bool) : Bool := value.isNone || (emptyToo && value = some "")
  let isUnset := value.isNone && s.has 'u'
  match use with
  | .bad =>
    Act.fail "Bad substitution"
    return []
  | .value => if isUnset then failUnset name else return shown
  | .length =>
    if isUnset then failUnset name
    else return f.marks quoted (Numeral.ofNat (value.getD "").length)
  | .substitute .default emptyToo word =>
    if missing emptyToo then p.fillInner f.full quoted word else return shown
  | .substitute .alternative emptyToo word =>
    if missing emptyToo then return [] else p.fillInner f.full quoted word
  | .substitute .assign emptyToo word =>
    if missing emptyToo then
      let text := Mark.text (← p.fillWord false false word)
      if !(← get).isGoing then return []
      else if isName name.toList then
        Act.assign name (String.ofList text)
        return f.marks quoted text
      else
        Act.fail (name ++ ": bad variable name")
        return []
    else return shown
  | .substitute .demand emptyToo word =>
    if missing emptyToo then
      let text := String.ofList (Mark.text (← p.fillParts ⟨false, false⟩ word))
      let reason := if emptyToo then "parameter not set or null" else "parameter not set"
      if (← get).isGoing then Act.fail (name ++ ": " ++ (if word.isEmpty then reason else text))
      return []
    else return shown
  | .trim front longest pattern =>
    if value.isNone then
      if s.has 'u' then failUnset name else return shown
    else
      let (pattern, _) := Pattern.ofMarked (Mark.field (← p.fillWord false false pattern))
      let trim := if front then pattern.dropFront longest else pattern.dropEnd longest
      if separate then return argumentMarks quoted (trim (argumentText s.arguments))
      else return f.marks quoted (trim (value.getD "").toList)

def fillOutput (p : Performer) (f : Filling) (command : Option Command) (quoted : Bool) :
    Act (List Mark) := do
  let channel ← Act.addChannel (.pipe .empty)
  match command with
  | none => return f.marks quoted []
  | some command =>
    let outcome ← Act.inProcess do
      Act.connect 1 channel
      p.run false command
      p.close
    modify fun s => { s with substituted := codeOf outcome }
    return f.marks quoted (filledText (← Act.contentOf channel))

def fillSum (p : Performer) (f : Filling) (expression : Word) (quoted : Bool) :
    Act (List Mark) := do
  let text := Mark.text (← p.fillParts ⟨false, false⟩ expression)
  let s ← get
  if !s.isGoing then return []
  let fail (fault : Arithmetic.Fault) : Act (List Mark) := do
    Act.fail (fault.message (String.ofList text))
    return []
  match Arithmetic.read text with
  | .error fault => fail fault
  | .ok e =>
    match e.value sumVariables s with
    | .ok (n, s) =>
      set s
      return f.marks quoted (Numeral.ofInt n.toInt)
    | .error fault => fail fault

def fillPart (p : Performer) (f : Filling) (part : WordPart) : Act (List Mark) := do
  if !(← get).isGoing then return []
  match part with
  | .literal text true => return Mark.ofText true .fixed text
  | .literal text false =>
    return if f.inside then f.marks false text else Mark.ofText false .fixed text
  | .quotes => return [.quotes]
  | .output command quoted => p.fillOutput f command quoted
  | .sum expression quoted => p.fillSum f expression quoted
  | .parameter name use quoted => p.fillParameter f name use quoted

def stepParts (p : Performer) (f : Filling) : Word → Act (List Mark)
  | [] => return []
  | part :: rest => do
    let here ← p.fillPart f part
    return here ++ (← p.stepParts f rest)

/-- The fields that words stand for. If `assigning`, words that look like assignments
are not split. -/
def fillWords (p : Performer) (assigning : Bool) : List Word → Act (List String)
  | [] => return []
  | w :: rest => do
    let whole := assigning && (assignment? w).isSome
    let marks ← p.fillWord (!whole) whole w
    let s ← get
    let here :=
      if whole then [String.ofList (Mark.text marks)]
      else
        (Mark.fields s.separators none marks).flatMap fun f =>
          if s.has 'f' then [String.ofList (f.map (·.1))] else Paths.expand s.files f
    return here ++ (← p.fillWords assigning rest)

/-- Do the words of this builtin command stand for assignments, if they look like them? -/
def takesAssignments (name : String) : Bool :=
  ["export", "readonly", "local", "alias"].contains name

/-- The words of a command. Behind a command that sets variables, words that look like
assignments are not split. -/
def fillCommand (p : Performer) : List Word → Act (List String)
  | [] => return []
  | w :: rest => do
    let front ← p.fillWords false [w]
    match front with
    | [] => p.fillCommand rest
    | name :: _ =>
      let special := takesAssignments name && !(← get).functions.contains name
      if name = "command" then return front ++ (← p.fillCommand rest)
      else return front ++ (← p.fillWords special rest)

def fillRedirects (p : Performer) : List Redirect → Act (List Redirection)
  | [] => return []
  | r :: rest => do
    let here : Option Redirection ←
      match r with
      | .file stream use target => do
        let name := Mark.text (← p.fillWord false false target)
        pure (some (.file stream use (String.ofList name)))
      | .document stream text => pure (some (.document stream text))
      | .duplicate stream target => do
        match Mark.text (← p.fillWord false false target) with
        | ['-'] => pure (some (.close stream))
        | [c] =>
          match digits? [c] with
          | some source => pure (some (.copy stream source))
          | none => pure none
        | _ => pure none
    match here with
    | some o => return o :: (← p.fillRedirects rest)
    | none =>
      if (← get).isGoing then Act.fail "Syntax error: Bad fd number"
      return []

def openRedirection (p : Performer) : Redirection → Act Bool
  | .file stream use name => Act.openStream stream use name
  | .copy stream source => Act.copyStream stream source
  | .close stream => do
    Act.disconnect stream
    return true
  | .document stream text => do
    let text := Mark.text (← p.fillParts ⟨false, false⟩ text)
    if (← get).flow = .failed then
      Act.setFlow .going
      return false
    else
      Act.connect stream (← Act.addChannel (.pipe ⟨text, []⟩))
      return true

def openAll (p : Performer) : List Redirection → Act Bool
  | [] => return true
  | o :: rest => do
    if ← p.openRedirection o then p.openAll rest else return false

end NestedBatch.Shell.Performer
