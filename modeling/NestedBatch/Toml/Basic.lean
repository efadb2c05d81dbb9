import NestedBatch.Double.Basic
import NestedBatch.KeyMap

/-! TOML values, and the rules by which headers and dotted keys build up tables.
Each table is defined in one place; only sub-tables may be added from elsewhere. -/
namespace NestedBatch

inductive TableOrigin where
  /-- A header names it. -/
  | header
  /-- A header names a table below it. -/
  | implied
  /-- A dotted key leads through it. -/
  | dotted
  /-- It stands in braces, and is complete. -/
  | inline
  deriving DecidableEq

inductive Toml where
  | string (s : String)
  | integer (n : Int)
  | float (d : Double)
  | boolean (b : Bool)
  /-- A date, a time of day, or both, as it is written in full. -/
  | time (text : String)
  | array (items : List Toml)
  | table (origin : TableOrigin) (fields : List (String × Toml))
  /-- Tables that headers in double brackets add one by one. -/
  | tables (all : List (List (String × Toml)))
  deriving Inhabited

namespace Toml

abbrev Fields := List (String × Toml)

/-- Puts a value under a name that is there, or at the end. -/
def putField (name : String) (v : Toml) : Fields → Fields
  | [] => [(name, v)]
  | (n, old) :: rest => if n = name then (n, v) :: rest else (n, old) :: putField name v rest

def changeLast (f : Fields → Option Fields) : List Fields → Option (List Fields)
  | [] => none
  | [last] => (f last).map fun last => [last]
  | first :: rest => (changeLast f rest).map (first :: ·)

/-- Files a value under a dotted key. The tables that only lead further may be
older ones; the one that takes the value has to come from dotted keys too. -/
def file (v : Toml) : List String → Fields → Option Fields
  | [], _ => none
  | [name], fields => if (lookupKey name fields).isSome then none else some (fields ++ [(name, v)])
  | name :: next :: rest, fields =>
    match lookupKey name fields with
    | none => (file v (next :: rest) []).map fun inner => fields ++ [(name, .table .dotted inner)]
    | some (.table .dotted inner) =>
      (file v (next :: rest) inner).map fun inner => putField name (.table .dotted inner) fields
    | some (.table .implied inner) =>
      if rest.isEmpty then none
      else
        (file v (next :: rest) inner).map fun inner =>
          putField name (.table .implied inner) fields
    | some (.tables all) =>
      if rest.isEmpty then none
      else
        (changeLast (file v (next :: rest)) all).map fun all => putField name (.tables all) fields
    | some _ => none

/-- Goes along the path of a header, to change the fields that its last name belongs to. -/
def along (change : String → Fields → Option Fields) : List String → Fields → Option Fields
  | [], _ => none
  | [name], fields => change name fields
  | name :: next :: rest, fields =>
    match lookupKey name fields with
    | none =>
      (along change (next :: rest) []).map fun inner => fields ++ [(name, .table .implied inner)]
    | some (.table .inline _) => none
    | some (.table origin inner) =>
      (along change (next :: rest) inner).map fun inner =>
        putField name (.table origin inner) fields
    | some (.tables all) =>
      (changeLast (along change (next :: rest)) all).map fun all =>
        putField name (.tables all) fields
    | some _ => none

/-- Opens the table of a header. It may have been implied before, but no more than that. -/
def openTable (name : String) (fields : Fields) : Option Fields :=
  match lookupKey name fields with
  | none => some (fields ++ [(name, .table .header [])])
  | some (.table .implied inner) => some (putField name (.table .header inner) fields)
  | some _ => none

def openNext (name : String) (fields : Fields) : Option Fields :=
  match lookupKey name fields with
  | none => some (fields ++ [(name, .tables [[]])])
  | some (.tables all) => some (putField name (.tables (all ++ [[]])) fields)
  | some _ => none

def inside (change : Fields → Option Fields) (name : String) (fields : Fields) : Option Fields :=
  match lookupKey name fields with
  | some (.table origin inner) =>
    (change inner).map fun inner => putField name (.table origin inner) fields
  | some (.tables all) =>
    (changeLast change all).map fun all => putField name (.tables all) fields
  | _ => none

end Toml

end NestedBatch
