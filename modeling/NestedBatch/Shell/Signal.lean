import NestedBatch.Shell.Integer

/-! Signals by number and name, and what they do to a process that does not care. -/
namespace NestedBatch.Shell.Signal

/-- The names of the signals from number zero on, which stands for the end of a script.
A few have only their number. -/
def names : List String :=
  ["EXIT", "HUP", "INT", "QUIT", "ILL", "TRAP", "ABRT", "BUS", "FPE", "KILL", "USR1", "SEGV",
   "USR2", "PIPE", "ALRM", "TERM", "16", "CHLD", "CONT", "STOP", "TSTP", "TTIN", "TTOU", "URG",
   "XCPU", "XFSZ", "VTALRM", "PROF", "WINCH", "IO", "PWR", "SYS", "32", "33", "RTMIN"] ++
  ((List.range 15).map fun n => "RTMIN+" ++ Numeral.natText (n + 1)) ++
  ((List.range 14).map fun n => "RTMAX-" ++ Numeral.natText (14 - n)) ++ ["RTMAX"]

def kill : Nat := 9
def stop : Nat := 19
def terminate : Nat := 15

def count : Nat := 65

def name (n : Nat) : String := names.getD n (Numeral.natText n)

/-- The signal that a number or a name stands for. Names may be in lower case. -/
def number? (lowest : Nat) (w : String) : Option Nat :=
  match digits? w.toList with
  | some n => if n < count then some n else none
  | none =>
    let upper := String.ofList (w.toList.map Char.toUpper)
    match names.findIdx? fun n => n = upper with
    | some n => if lowest ≤ n then some n else none
    | none => none

/-- Signals that pass without any effect, or only halt a process for a while. -/
def isHarmless (n : Nat) : Bool := [0, 17, 18, 19, 20, 21, 22, 23, 28].contains n

/-- What a shell reports of a process that a signal has ended. -/
def report? (n : Nat) : Option String :=
  lookup n
    [(1, "Hangup"), (3, "Quit"), (4, "Illegal instruction"), (5, "Trace/breakpoint trap"),
     (6, "Aborted"), (7, "Bus error"), (8, "Floating point exception"), (9, "Killed"),
     (10, "User defined signal 1"), (11, "Segmentation fault"), (12, "User defined signal 2"),
     (14, "Alarm clock"), (15, "Terminated"), (16, "Stack fault"),
     (24, "CPU time limit exceeded"), (25, "File size limit exceeded"),
     (26, "Virtual timer expired"), (27, "Profiling timer expired"), (29, "I/O possible"),
     (30, "Power failure"), (31, "Bad system call")]
where
  lookup (n : Nat) (texts : List (Nat × String)) : Option String :=
    (texts.find? fun p => p.1 = n).map (·.2)

end NestedBatch.Shell.Signal
