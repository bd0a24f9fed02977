/-!
# Logging settings

Of several levels that are asked for, the most verbose counts.
-/

namespace LaunchConfig

/-- How much is logged. -/
inductive LogLevel where
  | debug
  | info
  /-- Progress of the build, warnings and errors. -/
  | lifecycle
  /-- Errors only. -/
  | quiet
  deriving DecidableEq, Repr

namespace LogLevel

instance : Inhabited LogLevel := ⟨.lifecycle⟩

/-- The more is logged, the lower. -/
def rank : LogLevel → Nat
  | .debug => 0
  | .info => 1
  | .lifecycle => 2
  | .quiet => 3

instance : Ord LogLevel := ⟨fun a b => compare a.rank b.rank⟩

/-- The name by which a level is written. -/
def name : LogLevel → String
  | .debug => "debug"
  | .info => "info"
  | .lifecycle => "lifecycle"
  | .quiet => "quiet"

/-- All levels. -/
def all : List LogLevel := [.debug, .info, .lifecycle, .quiet]

/-- The level of a name. -/
def ofName? (s : String) : Option LogLevel := all.find? fun l => l.name = s

/-- The level at which more is logged. -/
def moreVerbose (a b : LogLevel) : LogLevel := if a.rank ≤ b.rank then a else b

/-- The level at which most is logged. -/
def mostVerbose? : List LogLevel → Option LogLevel
  | [] => none
  | l :: rest => some (rest.foldl moreVerbose l)

theorem ofName?_name (l : LogLevel) : ofName? l.name = some l := by
  cases l <;> decide

end LogLevel

/-- How much is logged, and whether in colour (`LoggingConfiguration`). -/
structure LoggingSettings where
  level : LogLevel := .lifecycle
  color : Bool := true
  deriving DecidableEq, Repr

instance : Inhabited LoggingSettings := ⟨{}⟩

end LaunchConfig
