import LaunchConfig.Options.Spec

/-!
# Errors of a conversion

Why a command line does not change a configuration.
-/

namespace LaunchConfig

/-- Why a command line cannot be converted. -/
inductive ConversionError where
  /-- A value that the option does not take. -/
  | invalidValue (option value reason : String)
  /-- Two options that exclude each other. -/
  | conflictingOptions (first second : String)
  deriving DecidableEq, Repr

namespace ConversionError

/-- What is reported of the error. -/
def message : ConversionError → String
  | .invalidValue option _ reason =>
    "invalid value for " ++ optionLabel option ++ ": " ++ reason
  | .conflictingOptions first second =>
    "the " ++ optionLabel first ++ " and " ++ optionLabel second
      ++ " options cannot be used together"

example : (conflictingOptions "e" "no-opt").message
    = "the -e and --no-opt options cannot be used together" := by decide

end ConversionError
end LaunchConfig
