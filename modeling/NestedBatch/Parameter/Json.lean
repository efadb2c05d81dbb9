import NestedBatch.Json.Record
import NestedBatch.Parameter.Set

/-! Parameters in JSON. -/
namespace NestedBatch

def ParameterValue.toJson (v : ParameterValue) : Json :=
  .tagged v.type.name <|
    match v with
    | .string s => .string s
    | .long n => .ofInt n.toInt
    | .double d => .ofDouble d
    | .date t => .ofInstant t

def ParameterValue.ofTagged? (tag : String) (v : Json) : Option ParameterValue :=
  if tag = "string" then v.asText.map .string
  else if tag = "long" then v.asLong.map .long
  else if tag = "double" then v.asDouble.map .double
  else if tag = "date" then v.asInstant.map .date
  else none

/-- Reads a value with its type; `held` says whether it belongs to a value that was held back. -/
def ParameterValue.ofJson? (held : Bool) (v : Json) : Option ParameterValue :=
  (v.tagged? held).bind fun t => ofTagged? t.tag t.value

def Parameter.toJson (p : Parameter) : Json :=
  .object [("value", p.value.toJson), ("identifying", .bool p.identifying)]

/-- Reads a parameter; one that does not say so is identifying. -/
def Parameter.ofJson? (held : Bool) (v : Json) : Option Parameter := do
  let r ← v.record? ["value", "identifying"]
  let value ← r.required "value" (ParameterValue.ofJson? held)
  let identifying ← r.withDefault "identifying" true Json.asBool
  some ⟨value, identifying⟩

def Parameters.toJson (p : Parameters) : Json := .ofMap Parameter.toJson p

def Parameters.ofJson? (held : Bool) (v : Json) : Option Parameters :=
  v.asMap (Parameter.ofJson? held)

end NestedBatch
