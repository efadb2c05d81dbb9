import NestedBatch.Shell.Program.Options

/-! The program `cat`, which writes files one after the other. -/
namespace NestedBatch.Shell.Program.Cat

def names : OptionNames where
  letters := "AbeEnstTuv".toList.map (·, false)
  words := [("show-all", 'A', false), ("number-nonblank", 'b', false), ("show-ends", 'E', false),
    ("number", 'n', false), ("squeeze-blank", 's', false), ("show-tabs", 'T', false),
    ("show-nonprinting", 'v', false)]
  anywhere := true

structure Manner where
  numbered : Bool
  /-- Are empty lines left without a number? -/
  onlyFull : Bool
  squeezed : Bool
  ends : Bool
  tabs : Bool
  visible : Bool

def Manner.of (options : List (Char × String)) : Manner where
  numbered := given options "nb"
  onlyFull := given options "b"
  squeezed := given options "s"
  ends := given options "AeE"
  tabs := given options "AtT"
  visible := given options "Aevt"

structure Progress where
  line : Nat
  /-- Does the next character start a line? -/
  atStart : Bool
  /-- How many empty lines have come last. -/
  empty : Nat

/-- A control character, or one of the high octets, in visible form. -/
def visible (c : Char) : List Char :=
  let low (n : Nat) : List Char :=
    if n < 32 then ['^', Char.ofNat (n + 64)] else if n = 127 then ['^', '?'] else [Char.ofNat n]
  if c.toNat < 128 then low c.toNat else 'M' :: '-' :: low (c.toNat - 128)

def label (n : Nat) : List Char :=
  let digits := Numeral.ofNat n
  List.replicate (6 - digits.length) ' ' ++ digits ++ ['\t']

def shown (m : Manner) : Progress → List Char → List Char × Progress
  | p, [] => ([], p)
  | p, c :: rest =>
    if c = '\n' ∧ p.atStart ∧ m.squeezed ∧ 0 < p.empty then shown m p rest
    else
      let counted := p.atStart && m.numbered && !(c = '\n' && m.onlyFull)
      let front := if counted then label (p.line + 1) else []
      let here : List Char :=
        if c = '\n' then if m.ends then ['$', '\n'] else ['\n']
        else if c = '\t' then if m.tabs then ['^', 'I'] else [c]
        else if m.visible then visible c
        else [c]
      let next : Progress :=
        { line := if counted then p.line + 1 else p.line
          atStart := c = '\n'
          empty := if c = '\n' ∧ p.atStart then p.empty + 1 else 0 }
      let (more, p) := shown m next rest
      (front ++ here ++ more, p)

def isOwnOutput (name : String) : Act Bool := do
  let s ← get
  let input : Option Channel :=
    if name = "-" then (s.streams.get? 0).bind fun n => s.system.channels[n]?
    else
      match s.files.locate (Text.decode name.toList) with
      | .ok t => some (.file t.place 0 .input)
      | .error _ => none
  let output := (s.streams.get? 1).bind fun n => s.system.channels[n]?
  match input, output with
  | some (.file source offset _), some (.file target _ _) =>
    return source = target && (s.system.contentAt source).any fun c => offset < c.size
  | _, _ => return false

def writeAll (m : Manner) : Progress → List String → Act Nat
  | _, [] => return 0
  | p, name :: rest => do
    if ← isOwnOutput name then
      say "cat" (name ++ ": input file is output file")
      let _ ← writeAll m p rest
      return 1
    match ← contentOf name with
    | .error fault =>
      say "cat" (faultText name fault)
      let _ ← writeAll m p rest
      return 1
    | .ok content =>
      let (text, p) := shown m p content
      match ← Act.write 1 text with
      | some fault =>
        say "cat" (faultText "write error" fault)
        return 1
      | none => writeAll m p rest

def run (words : List String) : Act Nat :=
  withOptions "cat" names 1 words fun options files => do
    if ((← get).streams.get? 1).isNone then
      say "cat" (faultText "standard output" .badStream)
      return 1
    writeAll (Manner.of options) ⟨0, true, 0⟩ (if files.isEmpty then ["-"] else files)

end NestedBatch.Shell.Program.Cat
