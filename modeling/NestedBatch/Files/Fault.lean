/-! What can go wrong with files and with starting programs. -/
namespace NestedBatch

inductive IoFault where
  | notFound
  | permissionDenied
  | alreadyExists
  | notDirectory
  | isDirectory
  | nameTooLong
  | notEmpty
  | noSpace
  | busy
  | argumentsTooLong
  | badStream
  /-- What should be text is not in UTF-8. -/
  | notText
  /-- A program, an argument or a variable holds the character NUL. -/
  | nulInData
  /-- A file name holds the character NUL. -/
  | nulInName
  /-- Any other fault, with its text. -/
  | other (text : String)
  deriving DecidableEq

namespace IoFault

/-- What a system calls the fault, and its number, if it comes from the system. -/
def reason : IoFault → String × Option String
  | .notFound => ("No such file or directory", some "2")
  | .permissionDenied => ("Permission denied", some "13")
  | .alreadyExists => ("File exists", some "17")
  | .notDirectory => ("Not a directory", some "20")
  | .isDirectory => ("Is a directory", some "21")
  | .nameTooLong => ("File name too long", some "36")
  | .notEmpty => ("Directory not empty", some "39")
  | .noSpace => ("No space left on device", some "28")
  | .busy => ("Device or resource busy", some "16")
  | .argumentsTooLong => ("Argument list too long", some "7")
  | .badStream => ("Bad file descriptor", some "9")
  | .notText => ("stream did not contain valid UTF-8", none)
  | .nulInData => ("nul byte found in provided data", none)
  | .nulInName => ("file name contained an unexpected NUL byte", none)
  | .other text => (text, none)

def message (f : IoFault) : String :=
  match f.reason with
  | (text, some number) => text ++ " (os error " ++ number ++ ")"
  | (text, none) => text

end IoFault

end NestedBatch
