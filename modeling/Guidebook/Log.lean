import Guidebook.Failure

/-!
# Log records

What a workflow reports while it runs, and the thresholds that the command line filters by.
-/

namespace Guidebook

/-- How much a record matters. -/
inductive LogLevel where
  | debug
  | info
  | warning
  | error
  deriving Repr, DecidableEq

namespace LogLevel

/-- The name in a written record. -/
def name : LogLevel → String
  | debug => "DEBUG"
  | info => "INFO"
  | warning => "WARNING"
  | error => "ERROR"

/-- The number that thresholds compare with. -/
def rank : LogLevel → Nat
  | debug => 10
  | info => 20
  | warning => 30
  | error => 40

end LogLevel

/-- One report of a workflow. -/
structure LogRecord where
  level : LogLevel
  logger : String
  message : String
  deriving Repr, DecidableEq

namespace LogRecord

/-- A record as the command line writes it. -/
def line (r : LogRecord) : String := r.level.name ++ " " ++ r.logger ++ ": " ++ r.message

end LogRecord

/-- The thresholds by name. -/
def logThresholds : List (String × Nat) :=
  [("CRITICAL", 50), ("FATAL", 50), ("ERROR", 40), ("WARN", 30), ("WARNING", 30), ("INFO", 20),
    ("DEBUG", 10), ("NOTSET", 0)]

/-- The threshold of a name in any case of letters. -/
def logThreshold (level : String) : Except Failure Nat :=
  match logThresholds.lookup (Text.upper level) with
  | some rank => .ok rank
  | none => .error (.unknownLevel level)

end Guidebook
