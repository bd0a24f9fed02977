/-!
# Stack traces

How much of a failed build's stack trace is printed, and the flags that ask for
it. The level of a build without such a flag has no flag of its own.
-/

namespace LaunchConfig

/-- When stack traces are printed (`ShowStacktrace`). -/
inductive StacktraceLevel where
  /-- For internal failures only. -/
  | internalExceptions
  /-- For every failure. -/
  | always
  /-- For every failure, and whole. -/
  | alwaysFull
  deriving DecidableEq, Repr

namespace StacktraceLevel

instance : Inhabited StacktraceLevel := ⟨.internalExceptions⟩

/-- The more is printed, the higher. -/
def rank : StacktraceLevel → Nat
  | .internalExceptions => 0
  | .always => 1
  | .alwaysFull => 2

instance : Ord StacktraceLevel := ⟨fun a b => compare a.rank b.rank⟩

/-- The name by which a level is written. -/
def name : StacktraceLevel → String
  | .internalExceptions => "internal-exceptions"
  | .always => "always"
  | .alwaysFull => "always-full"

/-- All levels. -/
def all : List StacktraceLevel := [.internalExceptions, .always, .alwaysFull]

/-- The level of a name. -/
def ofName? (s : String) : Option StacktraceLevel := all.find? fun l => l.name = s

/-- The flag that asks for whole stack traces. -/
def fullFlag : Char := 'S'

/-- The flag that asks for stack traces. -/
def flag : Char := 's'

/-- Flags and the levels they ask for, by ascending flag (`flags`). -/
def flags : List (Char × StacktraceLevel) := [(fullFlag, .alwaysFull), (flag, .always)]

/-- The level that a flag asks for (`level_for_flag`). -/
def levelOfFlag? (c : Char) : Option StacktraceLevel :=
  (flags.find? fun f => f.1 = c).map Prod.snd

/-- The flag that asks for a level (`flag_for_level`). -/
def flagOfLevel? (l : StacktraceLevel) : Option Char :=
  (flags.find? fun f => f.2 = l).map Prod.fst

/-- The levels that have a flag (`supported_levels`). -/
def supported : List StacktraceLevel := flags.map Prod.snd

theorem ofName?_name (l : StacktraceLevel) : ofName? l.name = some l := by
  cases l <;> decide

end StacktraceLevel
end LaunchConfig
