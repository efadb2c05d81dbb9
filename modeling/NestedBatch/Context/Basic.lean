import NestedBatch.Context.Value

/-! The context of an execution: values under keys, saved with the execution
and handed to its next attempt. -/
namespace NestedBatch

structure Context where
  entries : KeyMap String ContextValue
  /-- Has an entry changed since the context was last saved? -/
  dirty : Bool
  deriving DecidableEq

namespace Context

def empty : Context := ⟨.empty, false⟩

instance : Inhabited Context := ⟨empty⟩

def get? (c : Context) (key : String) : Option ContextValue := c.entries.get? key

/-- Files a value. A value that agrees with the one already there changes nothing. -/
def put (c : Context) (key : String) (value : ContextValue) : Context :=
  if (c.get? key).any fun old => old.agrees value then c
  else ⟨c.entries.insert key value, true⟩

def string? (c : Context) (key : String) : Option String :=
  match c.get? key with
  | some (.string s) => some s
  | _ => none

def long? (c : Context) (key : String) : Option Int64 :=
  match c.get? key with
  | some (.long n) => some n
  | _ => none

def parameters? (c : Context) (key : String) : Option Parameters :=
  match c.get? key with
  | some (.parameters p) => some p
  | _ => none

def contains (c : Context) (key : String) : Bool := c.entries.contains key

def size (c : Context) : Nat := c.entries.size

def isEmpty (c : Context) : Bool := c.entries.isEmpty

def clearDirty (c : Context) : Context := { c with dirty := false }

/-- Equality of contexts: the same keys with agreeing values, and the same flag. -/
def agrees (c d : Context) : Bool :=
  c.size = d.size && c.dirty = d.dirty &&
    (c.entries.entries.zip d.entries.entries).all fun e => e.1.1 = e.2.1 && e.1.2.agrees e.2.2

def text (c : Context) : String :=
  "\x7b" ++ ", ".intercalate (c.entries.entries.map fun e => e.1 ++ "=" ++ e.2.text) ++ "\x7d"

end Context

end NestedBatch
