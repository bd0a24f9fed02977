/-!
# Log records

A record has a severity, the name of the part of the program it comes from, and
a message.
-/

namespace LaunchConfig

/-- How serious a record is. -/
inductive Severity where
  | error
  | warn
  | info
  | debug
  | trace
  deriving DecidableEq, Repr

namespace Severity

/-- Less detail comes before more. -/
def rank : Severity → Nat
  | .error => 0
  | .warn => 1
  | .info => 2
  | .debug => 3
  | .trace => 4

/-- The word that stands for the severity on a line of the log. -/
def name : Severity → String
  | .error => "ERROR"
  | .warn => "WARN"
  | .info => "INFO"
  | .debug => "DEBUG"
  | .trace => "TRACE"

/-- Is a record of severity `s` shown by a log that goes down to `least`? -/
def shownAt (s least : Severity) : Bool := s.rank ≤ least.rank

end Severity

/-- What the program tells about its work. -/
structure Record where
  severity : Severity
  target : String
  message : String
  deriving DecidableEq, Repr

namespace Record

/-- The record on one line, without the time. -/
def line (r : Record) : String := r.severity.name ++ " " ++ r.target ++ ": " ++ r.message

/-- The records that a log shows which goes down to `least`. -/
def visible (least : Severity) (records : List Record) : List Record :=
  records.filter fun r => r.severity.shownAt least

end Record
end LaunchConfig
