import LaunchConfig.Arguments.CommandLine
import LaunchConfig.Configuration.Logging
import LaunchConfig.Conversion.Error

/-!
# Logging options

The options `-q`, `-i`, `-d` and `--no-color`, and what they ask for. What a
conversion needs of them is a `LoggingSource`, so that another set of logging
options can take their place.

Results:

* `convert_standard`: the standard options never fail, and their effect depends
  only on which of them are present.
-/

namespace LaunchConfig

namespace LoggingOption

/-- Only errors are logged. -/
def quiet : OptionSpec := ⟨"q", some "quiet", .flag, "Log errors only.", none⟩

/-- Information is logged too. -/
def info : OptionSpec := ⟨"i", some "info", .flag, "Set log level to info.", none⟩

/-- Everything is logged. -/
def debug : OptionSpec :=
  ⟨"d", some "debug", .flag, "Log in debug mode (includes normal stacktrace).", none⟩

/-- The log is not coloured. -/
def noColor : OptionSpec :=
  ⟨"no-color", none, .flag, "Do not use color in the console output.", none⟩

/-- All logging options, in the order of registration. -/
def all : List OptionSpec := [quiet, info, debug, noColor]

/-- The flags that ask for a level (`LEVEL_FLAGS`). -/
def levels : List (OptionSpec × LogLevel) := [(quiet, .quiet), (info, .info), (debug, .debug)]

end LoggingOption

/-- The level that a command line asks for: of several, the most verbose. -/
def requestedLevel? (p : CommandLine) : Option LogLevel :=
  LogLevel.mostVerbose? ((LoggingOption.levels.filter fun f => p.has f.1.id).map Prod.snd)

/-- Options that are about logging, and what they do to logging settings. -/
structure LoggingSource where
  options : List OptionSpec
  convert : CommandLine → LoggingSettings → Except ConversionError LoggingSettings

namespace LoggingSource

/-- Apply the logging options of a command line. -/
def applyStandard (p : CommandLine) (l : LoggingSettings) : LoggingSettings where
  level := (requestedLevel? p).getD l.level
  color := l.color && !p.has LoggingOption.noColor.id

/-- The options of this module (`LoggingConverter`). -/
def standard : LoggingSource where
  options := LoggingOption.all
  convert p l := .ok (applyStandard p l)

@[simp] theorem convert_standard (p : CommandLine) (l : LoggingSettings) :
    standard.convert p l = .ok (applyStandard p l) := rfl

end LoggingSource
end LaunchConfig
