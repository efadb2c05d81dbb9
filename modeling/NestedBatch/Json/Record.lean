import NestedBatch.Calendar.Reading
import NestedBatch.Json.Number
import NestedBatch.KeyMap

/-! Reading records, lists, maps and tagged values out of JSON values. -/
namespace NestedBatch.Json

/-- The known fields of a record. They are given by name, or in an array by
their places. -/
structure Record where
  positional : Bool
  fields : List (String × Json)

/-- Reads a record with the given field names. A name may not come twice; other
fields are passed over. -/
def record? (names : List String) : Json → Option Record
  | .object fields =>
    let known := fields.filter fun f => names.contains f.1
    if (known.map (·.1)).Nodup then some ⟨false, known⟩ else none
  | .array items => if items.length ≤ names.length then some ⟨true, names.zip items⟩ else none
  | _ => none

namespace Record

variable {α : Type}

def find? (r : Record) (name : String) : Option Json := lookupKey name r.fields

def required (r : Record) (name : String) (read : Json → Option α) : Option α :=
  (r.find? name).bind read

/-- A field that may be null, or, given by name, left out. -/
def optional (r : Record) (name : String) (read : Json → Option α) : Option (Option α) :=
  match r.find? name with
  | none => if r.positional then none else some none
  | some .null => some none
  | some v => (read v).map some

/-- A field with a value of its own where it is left out. -/
def withDefault (r : Record) (name : String) (default : α) (read : Json → Option α) : Option α :=
  match r.find? name with
  | none => some default
  | some v => read v

end Record

def asText : Json → Option String
  | .string s => some s
  | _ => none

def asBool : Json → Option Bool
  | .bool b => some b
  | _ => none

def asNat : Json → Option Nat
  | .number n => (integer? n).bind fun i => if 0 ≤ i then some i.toNat else none
  | _ => none

def asLong : Json → Option Int64
  | .number n => (integer? n).bind fun i => if i ≤ Span.long.high then some (.ofInt i) else none
  | _ => none

def asDouble : Json → Option Double
  | .number n => double? n
  | _ => none

def asInstant : Json → Option Instant
  | .string s => Calendar.readStored s.toList
  | _ => none

def asList {α : Type} (read : Json → Option α) : Json → Option (List α)
  | .array items => items.mapM read
  | _ => none

/-- A map with text keys; of a repeated key the last value counts. -/
def asMap {α : Type} (read : Json → Option α) : Json → Option (KeyMap String α)
  | .object fields => (fields.mapM fun f => (read f.2).map (f.1, ·)).map .ofList
  | _ => none

/-- A name out of a list of names: a string, or an object with that one name
over null. In a value that was held back, an empty object does as well as null. -/
def asName (held : Bool) : Json → Option String
  | .string s => some s
  | .object [(s, .null)] => some s
  | .object [(s, .object [])] => if held then some s else none
  | _ => none

mutual

/-- Can the whole value be held, with all its numbers and strings? -/
def isSound : Json → Bool
  | .number n => (double? n).isSome
  | .broken => false
  | .array items => allSound items
  | .object fields => allSoundFields fields
  | _ => true

def allSound : List Json → Bool
  | [] => true
  | v :: rest => isSound v && allSound rest

def allSoundFields : List (String × Json) → Bool
  | [] => true
  | (_, v) :: rest => isSound v && allSoundFields rest

end

structure Tagged where
  tag : String
  value : Json
  /-- Was the value held back, or does it belong to one that was? -/
  held : Bool

/-- Reads a value under the name of its type. If the value comes first, all of it
has to be held back until the type is known. -/
def tagged? (held : Bool) : Json → Option Tagged
  | .object fields =>
    match fields.filter fun f => f.1 = "type" || f.1 = "value" with
    | [("type", tag), ("value", v)] => (asName held tag).map (⟨·, v, held⟩)
    | [("value", v), ("type", tag)] =>
      if isSound v then (asName held tag).map (⟨·, v, true⟩) else none
    | _ => none
  | .array [tag, v] => (asName held tag).map (⟨·, v, held⟩)
  | _ => none

def tagged (tag : String) (v : Json) : Json := .object [("type", .string tag), ("value", v)]

def ofInstant (t : Instant) : Json := .string (t.text .exact)

def ofMap {α : Type} (f : α → Json) (m : KeyMap String α) : Json :=
  .object (m.entries.map fun e => (e.1, f e.2))

end NestedBatch.Json
