import NestedBatch.CommandLine.Basic

/-! What is said to someone who asks for help, or who asked wrongly. -/
namespace NestedBatch

def usageText : String :=
  "Usage: nestedbatch [-v] COMMAND\n\n" ++
  "  run [--config FILE] [--param NAME=VALUE] [--context KEY=VALUE]\n" ++
  "      [--store FILE] [--launcher sync|task]\n" ++
  "  status --store FILE\n" ++
  "  demo\n"

namespace UsageFault

def message : UsageFault → String
  | .help | .nothingGiven => usageText
  | .version => "nestedbatch 0.1.0\n"
  | .noCommand => "a command is required\n"
  | .unknownCommand => "unknown command\n"
  | .unknownArgument => "unexpected argument\n"
  | .missingOption => "a required option is missing\n"
  | .badValue => "a value is missing or not valid\n"
  | .repeated => "an option was given more than once\n"
  | .unwantedValue => "a flag takes no value\n"

def exitCode : UsageFault → Nat
  | .help | .version => 0
  | _ => 2

end UsageFault

end NestedBatch
