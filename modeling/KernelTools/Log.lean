import KernelTools.Text

/-!
# Log records

A run leaves a list of records behind.  Which of them are shown is decided once, after the run, by
a threshold that the verbosity flags choose: the level of a record never decides what the run does.
-/

namespace KernelTools.Log

/-! ## Levels -/

/-- Importance of a record, the most important first. -/
inductive Level
  | error
  | warn
  | info
  | debug
  | trace
deriving DecidableEq

/-- Position of a level, counted from the most important. -/
def Level.rank : Level → Nat
  | .error => 1
  | .warn => 2
  | .info => 3
  | .debug => 4
  | .trace => 5

/-- The name under which a level is shown. -/
def Level.name : Level → Text
  | .error => "ERROR".toList
  | .warn => "WARN".toList
  | .info => "INFO".toList
  | .debug => "DEBUG".toList
  | .trace => "TRACE".toList

/-- The least important level still shown: only errors when quiet, otherwise information and one
level more for each of the first two verbosity steps. -/
def threshold (quiet : Bool) (verbosity : Nat) : Level :=
  if quiet then .error
  else match verbosity with
    | 0 => .info
    | 1 => .debug
    | _ => .trace

/-! ## Records -/

/-- One entry of the log. -/
structure Record where
  level : Level
  /-- The part of the tools that speaks. -/
  target : Text
  message : Text
deriving DecidableEq

/-- Whether a record is shown under a threshold. -/
def Record.shownAt (threshold : Level) (r : Record) : Bool :=
  decide (r.level.rank ≤ threshold.rank)

/-- The records shown under a threshold, in their order. -/
def shown (threshold : Level) (records : List Record) : List Record :=
  records.filter (·.shownAt threshold)

/-- The line in which a record is shown. -/
def Record.line (r : Record) : Text :=
  "[".toList ++ r.level.name ++ "] ".toList ++ r.target ++ ": ".toList ++ r.message

end KernelTools.Log
