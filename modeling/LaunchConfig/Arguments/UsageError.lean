import LaunchConfig.Options.Spec

/-!
# Errors in the use of a command line

Why arguments are not a command line of a schema, and how that is said.
-/

namespace LaunchConfig

/-- What is wrong with a list of arguments. -/
inductive UsageError where
  /-- No option answers to a long name. -/
  | unknownLong (name : String)
  /-- No option answers to a letter. -/
  | unknownLetter (letter : String)
  /-- A value was attached to an option that takes none. -/
  | unexpectedValue (value : String) (option : OptionSpec)
  /-- An argument whose text is needed is not UTF-8. -/
  | invalidUtf8
  /-- An option that takes a value was given none. -/
  | missingValue (option : OptionSpec)
  /-- An option of a single value was given more than once. -/
  | repeatedOption (option : OptionSpec)
  deriving DecidableEq, Repr

namespace UsageError

/-- What is said of a name that no option answers to, as it was typed. -/
def unknownMessage (typed : String) : String :=
  "error: Found argument '" ++ typed ++ "' which wasn't expected, or isn't valid in this context"

/-- What is reported of the error. -/
def message : UsageError → String
  | .unknownLong name => unknownMessage ("--" ++ name)
  | .unknownLetter letter => unknownMessage ("-" ++ letter)
  | .unexpectedValue value option =>
    "error: The value '" ++ value ++ "' was provided to '" ++ option.display
      ++ "' but it wasn't expecting any more values"
  | .invalidUtf8 => "error: Invalid UTF-8 was detected in one or more arguments"
  | .missingValue option =>
    "error: The argument '" ++ option.display ++ "' requires a value but none was supplied"
  | .repeatedOption option =>
    "error: The argument '" ++ option.display
      ++ "' was provided more than once, but cannot be used multiple times"

end UsageError

/-- Why reading ends without a command line. -/
inductive Halt where
  /-- Help was asked for. -/
  | help
  /-- The version was asked for. -/
  | version
  /-- The arguments are no command line. -/
  | usage (e : UsageError)
  /-- There is an error of use, and reporting it fails, or the options cannot be told apart. -/
  | crash
  deriving DecidableEq, Repr

end LaunchConfig
