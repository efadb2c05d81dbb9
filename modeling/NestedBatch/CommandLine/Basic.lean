import NestedBatch.Launch

/-! What can be asked for on the command line, and how it can be asked wrongly. -/
namespace NestedBatch

structure RunOptions where
  /-- The file of the configuration. -/
  config : String
  parameters : List String
  context : List String
  store : Option String
  launcher : Option Launcher

inductive Request where
  /-- Run the configured child as the step of a parent. -/
  | run (options : RunOptions)
  /-- List what a store records. -/
  | status (store : String)
  /-- Show what the outcomes of children do to a step. -/
  | demo

structure CommandLine where
  request : Request
  verbose : Bool

/-- Why there is nothing to be run. Being asked for help is one of the reasons. -/
inductive UsageFault where
  | help
  | version
  | nothingGiven
  | noCommand
  | unknownCommand
  | unknownArgument
  | missingOption
  | badValue
  | repeated
  /-- A flag was given a value. -/
  | unwantedValue
  deriving DecidableEq

end NestedBatch
