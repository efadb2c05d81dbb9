import NestedBatch.Shell.Session

/-! Redirections, once the words for their targets have been filled in. -/
namespace NestedBatch.Shell

def openFault (creates : Bool) (name : String) (fault : IoFault) : String :=
  let reason :=
    if fault = .notFound ∨ fault = .notDirectory then
      if creates then "Directory nonexistent" else "No such file"
    else fault.reason.1
  (if creates then "cannot create " else "cannot open ") ++ name ++ ": " ++ reason

inductive Redirection where
  | file (stream : Nat) (use : FileUse) (name : String)
  | copy (stream source : Nat)
  | close (stream : Nat)
  /-- A text that is filled in as the stream is opened. -/
  | document (stream : Nat) (text : Word)

def Redirection.stream : Redirection → Nat
  | .file n _ _ | .copy n _ | .close n | .document n _ => n

namespace Act

/-- Leads a stream to a file, and tells whether that went well. -/
def openStream (stream : Nat) (use : FileUse) (name : String) : Act Bool := do
  let s ← get
  match s.system.openFile s.files (Text.decode name.toList) use (s.has 'C') with
  | .ok (channel, system) =>
    set { s with system }
    connect stream (← addChannel channel)
    return true
  | .error fault =>
    complain (openFault (use ≠ .input) name fault)
    return false

/-- Leads a stream where another one leads, and tells whether that went well. -/
def copyStream (stream source : Nat) : Act Bool := do
  match (← get).streams.get? source with
  | some channel =>
    connect stream channel
    return true
  | none =>
    complain (Numeral.natText source ++ ": Bad file descriptor")
    return false

def restore (before : KeyMap Nat Nat) (opened : List Redirection) : Act Unit :=
  modify fun s =>
    let streams := opened.foldl (fun streams o =>
      match before.get? o.stream with
      | some channel => streams.insert o.stream channel
      | none => streams.filter fun p => p.1 ≠ o.stream) s.streams
    { s with streams }

end Act

end NestedBatch.Shell
