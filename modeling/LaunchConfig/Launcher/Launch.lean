import LaunchConfig.Arguments.Parse
import LaunchConfig.Configuration.Encoding
import LaunchConfig.Conversion.Build
import LaunchConfig.Launcher.Help
import LaunchConfig.Launcher.Seed
import LaunchConfig.Text.Paragraph

/-!
# One run of the launcher

The launcher reads its arguments, puts them on top of what the environment
gives, and prints the configuration that results. It prints all of it or
nothing. It exits with 0 if it has printed what was asked for, with 1 if it fails,
with 2 if the arguments are no command line, and with 101 if it crashes; a crash
reports no error. It fails if the working directory is unknown, if the conversion
fails, or if a path of the configuration cannot be printed.

Results:

* `launch_of_usage`: arguments that form no command line end the run at once;
* `launch_of_unknown`: so does a working directory that is unknown;
* `launch_of_parse`: otherwise the conversion decides.
-/

namespace LaunchConfig

/-- What a run leaves behind. -/
structure Launch where
  exitCode : Nat
  stdout : String
  records : List Record
  /-- The error that is reported, if one is. -/
  error? : Option String

namespace Launch

/-- The name and the version of the launcher, and what help says of it. -/
def heading : Help.Heading where
  name := "build-launcher"
  version := "0.1.0"
  about := "Convert build launcher options into a build configuration"
  extra := "TASK"
  extraDescription := "Tasks to execute."

/-- The options of the launcher. It also answers to its version. -/
def grammar : Grammar := ⟨buildSchema .standard, true⟩

/-- How far down the log goes at a level (`loglevel`). -/
def leastSeverity : LogLevel → Severity
  | .quiet => .error
  | .lifecycle => .warn
  | .info => .info
  | .debug => .debug

/-- The record of the start. -/
def startRecord : Record := ⟨.info, "build_launcher", "starting " ++ heading.title⟩

/-- The logging settings of a command line, which hold from the start (`from_parsed`). -/
def loggingOf (p : CommandLine) : LoggingSettings := LoggingSource.applyStandard p {}

/-- What is reported of a configuration with a path that is not UTF-8. -/
def invalidPathMessage : String := "path contains invalid UTF-8 characters"

/-- What a failure leaves behind, besides the records (`main`). -/
def ofFailure (f : Failure) (records : List Record) : Launch :=
  ⟨1, "", records, some ("Error: " ++ f.message)⟩

/-- What is shown of the records that come after the start of the run. -/
def log (p : CommandLine) (records : List Record) : List Record :=
  Record.visible (leastSeverity (loggingOf p).level) (startRecord :: records)

/-- What the conversion of a command line leaves behind. -/
def ofCommandLine (p : CommandLine) (seed : Configuration) : Launch :=
  let conversion := Conversion.convertWith .standard p seed
  let records := log p conversion.records
  match conversion.result with
  | .error e => ofFailure ⟨e.message, []⟩ records
  | .ok c =>
    match c.print? with
    | some text => ⟨0, text ++ "\n", records, none⟩
    | none => ofFailure ⟨invalidPathMessage, []⟩ records

/-- What a halt leaves behind. -/
def ofHalt : Halt → Launch
  | .help => ⟨0, Help.text heading grammar, [], none⟩
  | .version => ⟨0, heading.title ++ "\n", [], none⟩
  | .usage e => ⟨2, "", [], some (Text.firstParagraph e.message)⟩
  | .crash => ⟨101, "", [], none⟩

/-- What the outcome of reading the arguments leaves behind. Where the working directory is
    unknown nothing is converted. -/
def ofParse (dir : WorkingDirectory) (env : Environment) : Except Halt CommandLine → Launch
  | .error halt => ofHalt halt
  | .ok p =>
    match env.seedIn dir with
    | .error f => ofFailure f (log p [])
    | .ok seed => ofCommandLine p seed

end Launch

/-- Run the launcher (`run`). -/
def launch (args : List RawText) (dir : WorkingDirectory) (env : Environment) : Launch :=
  .ofParse dir env (Launch.grammar.parse args)

section

variable {args : List RawText} {p : CommandLine}

theorem launch_of_usage {halt : Halt} (h : Launch.grammar.parse args = .error halt)
    (dir : WorkingDirectory) (env : Environment) : launch args dir env = .ofHalt halt := by
  rw [launch, h]
  rfl

theorem launch_of_unknown (h : Launch.grammar.parse args = .ok p) (cause : String)
    (env : Environment) :
    launch args (.unknown cause) env
      = .ofFailure ⟨"failed to get current directory", [cause]⟩ (Launch.log p []) := by
  rw [launch, h]
  rfl

theorem launch_of_parse (h : Launch.grammar.parse args = .ok p) (cwd : RawText)
    (env : Environment) : launch args (.known cwd) env = .ofCommandLine p (env.seed cwd) := by
  rw [launch, h]
  rfl

end

end LaunchConfig
