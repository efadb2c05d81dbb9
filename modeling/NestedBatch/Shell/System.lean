import NestedBatch.Machine.Basic
import NestedBatch.Shell.Grammar
import NestedBatch.Text.Octets

/-! What the processes of a script share: the machine, the channels that their
streams lead to, and the signals under way. All text is held as octets. -/
namespace NestedBatch.Shell

/-- What was written to a pipe and is still to be read: the text in front, and behind it
the pieces that were written since, last first. -/
structure Pipe where
  front : List Char
  back : List (List Char)

namespace Pipe

def empty : Pipe := ⟨[], []⟩

def content (p : Pipe) : List Char :=
  if p.back.isEmpty then p.front else p.front ++ p.back.reverse.flatten

def write (p : Pipe) (text : List Char) : Pipe := { p with back := text :: p.back }

def drop (p : Pipe) (count : Nat) : Pipe := ⟨p.content.drop count, []⟩

end Pipe

inductive Channel where
  /-- What comes out of all this in the end. -/
  | printed
  /-- Takes all, and has nothing to read. -/
  | void
  /-- Has no room for anything. -/
  | full
  /-- Holds what was written until it is read. -/
  | pipe (p : Pipe)
  | file (place : List String) (offset : Nat) (use : FileUse)
  /-- Can be opened, but not read. -/
  | directory

structure System where
  machine : Machine
  channels : Array Channel
  printed : String
  /-- The number of the next process. -/
  next : Nat
  /-- Signals that have been sent, each with the process that it goes to. -/
  signals : List (Nat × Nat)

namespace System

def add (s : System) (c : Channel) : Nat × System :=
  (s.channels.size, { s with channels := s.channels.push c })

def setChannel (s : System) (n : Nat) (c : Channel) : System :=
  { s with channels := s.channels.setIfInBounds n c }

def newProcess (s : System) : Nat × System := (s.next, { s with next := s.next + 1 })

/-- The content of an open file; one that is gone by now has none. -/
def contentAt (s : System) (place : List String) : Option ByteArray :=
  match s.machine.files.found? place with
  | some (.file content) => some content
  | _ => none

def overwritten (old new : ByteArray) (offset : Nat) : ByteArray :=
  let gap : ByteArray := ⟨Array.replicate (offset - old.size) 0⟩
  old.extract 0 offset ++ gap ++ new ++ old.extract (offset + new.size) old.size

def write (s : System) (n : Nat) (text : List Char) : Except IoFault System :=
  match s.channels[n]? with
  | some .printed => .ok { s with printed := s.printed ++ String.ofList text }
  | some .void => .ok s
  | some .full => if text.isEmpty then .ok s else .error .noSpace
  | some (.pipe p) => .ok (s.setChannel n (.pipe (p.write text)))
  | some (.file place offset use) =>
    if use = .input then .error .badStream
    else
      match s.contentAt place with
      | none => .ok s
      | some old =>
        let new := Text.bytesOf text
        let offset := if use = .append then old.size else offset
        match s.machine.files.writeAt place (overwritten old new offset) with
        | .error fault => .error fault
        | .ok files =>
          let s := s.setChannel n (.file place (offset + new.size) use)
          .ok { s with machine := { s.machine with files } }
  | some .directory | none => .error .badStream

/-- What can be read from a channel, or only so many octets of it. -/
def readable (s : System) (n : Nat) (most : Option Nat) : Except IoFault (List Char) :=
  match s.channels[n]? with
  | some .void | some .full => .ok []
  | some (.pipe p) => .ok ((most.map p.content.take).getD p.content)
  | some (.file place offset use) =>
    if use = .input ∨ use = .both then
      let content := (s.contentAt place).getD .empty
      let stop := (most.map (offset + ·)).getD content.size
      .ok (Text.octetsOf (content.extract offset stop))
    else .error .badStream
  | some .directory => .error .isDirectory
  | some .printed | none => .error .badStream

def take (s : System) (n count : Nat) : System :=
  match s.channels[n]? with
  | some (.pipe p) => s.setChannel n (.pipe (p.drop count))
  | some (.file place offset use) => s.setChannel n (.file place (offset + count) use)
  | _ => s

/-- Opens what a name stands for. `guarded` says that no file may be overwritten. -/
def openFile (s : System) (files : Files) (name : String) (use : FileUse) (guarded : Bool) :
    Except IoFault (Channel × System) := do
  let found := (files.look name).toOption
  let special : Option Channel :=
    match found with
    | some .sink => some .void
    | some .full => some .full
    | _ => none
  match special, use with
  | some c, _ => return (c, s)
  | none, .input =>
    match ← files.look name with
    | .directory => return (.directory, s)
    | .file _ => return (.file (← files.locate name).place 0 .input, s)
    | _ => return (.void, s)
  | none, use =>
    if guarded && use = .output && found.isSome then throw .alreadyExists
    let place ← files.writable name
    let empties := use = .output || use = .force
    let here := s.machine.files.here
    let files ← if empties || found.isNone then files.writeAt place .empty else pure files
    let machine := { s.machine with files := { files with here } }
    return (.file place 0 use, { s with machine })

end System

end NestedBatch.Shell
