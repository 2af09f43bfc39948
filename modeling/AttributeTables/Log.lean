/-!
# Log records

What an operation reports on the side. Operations give their records as values; printing them is
left to the program.
-/

namespace AttributeTables.Log

/-- How much a record matters, most first. -/
inductive Level where
  | error
  | warn
  | info
  | debug
  | trace
  deriving DecidableEq

namespace Level

/-- Every level. -/
def all : List Level := [.error, .warn, .info, .debug, .trace]

/-- The level in capitals. -/
def name : Level → String
  | .error => "ERROR"
  | .warn => "WARN"
  | .info => "INFO"
  | .debug => "DEBUG"
  | .trace => "TRACE"

/-- A larger number for a level that matters less. -/
def rank : Level → Nat
  | .error => 1
  | .warn => 2
  | .info => 3
  | .debug => 4
  | .trace => 5

end Level

/-- A message with its level and the part of the program that sends it. -/
structure Record where
  level : Level
  target : String
  message : String
  deriving DecidableEq

end AttributeTables.Log
