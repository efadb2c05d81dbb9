/-! The life of an execution, in the order in which statuses are upgraded. -/
namespace NestedBatch

inductive Status where
  | completed
  | starting
  | started
  | stopping
  | stopped
  | failed
  | abandoned
  | unknown
  deriving DecidableEq, Inhabited

namespace Status

def all : List Status :=
  [.completed, .starting, .started, .stopping, .stopped, .failed, .abandoned, .unknown]

def rank : Status → Nat
  | .completed => 0
  | .starting => 1
  | .started => 2
  | .stopping => 3
  | .stopped => 4
  | .failed => 5
  | .abandoned => 6
  | .unknown => 7

def name : Status → String
  | .completed => "COMPLETED"
  | .starting => "STARTING"
  | .started => "STARTED"
  | .stopping => "STOPPING"
  | .stopped => "STOPPED"
  | .failed => "FAILED"
  | .abandoned => "ABANDONED"
  | .unknown => "UNKNOWN"

def ofName? (name : String) : Option Status := all.find? fun s => s.name = name

theorem ofName?_name (s : Status) : ofName? s.name = some s := by
  cases s <;> decide

def isRunning : Status → Bool
  | .starting | .started | .stopping => true
  | _ => false

def isUnsuccessful (s : Status) : Bool := rank .failed ≤ s.rank

def later (s t : Status) : Status := if s.rank ≤ t.rank then t else s

/-- Joins two statuses. Past `started` the later one counts; before that,
`completed` wins over a running status. -/
def upgradeTo (s t : Status) : Status :=
  if rank .started < s.rank ∨ rank .started < t.rank then s.later t
  else if s = .completed ∨ t = .completed then .completed
  else s.later t

end Status

end NestedBatch
