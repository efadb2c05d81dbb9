import NestedBatch.Context.Basic
import NestedBatch.Parameter.Json

/-! Contexts in JSON. The flag for unsaved changes is not written. -/
namespace NestedBatch

def ContextValue.toJson (v : ContextValue) : Json :=
  .tagged v.typeName <|
    match v with
    | .string s => .string s
    | .long n => .ofInt n.toInt
    | .double d => .ofDouble d
    | .date t => .ofInstant t
    | .bool b => .bool b
    | .parameters p => p.toJson

def ContextValue.ofTagged? (t : Json.Tagged) : Option ContextValue :=
  let tag := t.tag
  let v := t.value
  if tag = "string" then v.asText.map .string
  else if tag = "long" then v.asLong.map .long
  else if tag = "double" then v.asDouble.map .double
  else if tag = "date" then v.asInstant.map .date
  else if tag = "bool" then v.asBool.map .bool
  else if tag = "parameters" then (Parameters.ofJson? t.held v).map .parameters
  else none

def ContextValue.ofJson? (v : Json) : Option ContextValue :=
  (v.tagged? false).bind ofTagged?

def Context.toJson (c : Context) : Json :=
  .object [("entries", .ofMap ContextValue.toJson c.entries)]

def Context.ofJson? (v : Json) : Option Context := do
  let r ← v.record? ["entries"]
  let entries ← r.required "entries" (Json.asMap ContextValue.ofJson?)
  some ⟨entries, false⟩

end NestedBatch
