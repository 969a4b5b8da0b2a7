/-
Log records, as values: what a part of the library wants to be told, and how loudly.
-/

set_option autoImplicit false

namespace Orthography

/-- How loud a record is. -/
inductive LogLevel where
  | debug
  | info
  | warning
  | error
  deriving DecidableEq, Repr

namespace LogLevel

/-- The level as a number; louder levels have larger numbers. -/
def number : LogLevel → Nat
  | .debug => 10
  | .info => 20
  | .warning => 30
  | .error => 40

def name : LogLevel → String
  | .debug => "DEBUG"
  | .info => "INFO"
  | .warning => "WARNING"
  | .error => "ERROR"

end LogLevel

structure LogRecord where
  level : LogLevel
  logger : String
  message : String
  deriving DecidableEq, Repr

namespace LogRecord

def passes (threshold : LogLevel) (r : LogRecord) : Bool := threshold.number ≤ r.level.number

def line (r : LogRecord) : String := r.level.name ++ ": " ++ r.logger ++ ": " ++ r.message ++ "\n"

end LogRecord

end Orthography
