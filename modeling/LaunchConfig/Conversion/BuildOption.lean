import LaunchConfig.Configuration.Basic
import LaunchConfig.Conversion.Logging
import LaunchConfig.Options.Schema

/-!
# Build options

The options that configure a build, in the order in which they are registered.

Results:

* `registered_buildSchema`: the logging options and the build options can all be
  registered together.
-/

namespace LaunchConfig
namespace BuildOption

/-- No settings file is searched for in parent directories. -/
def noSearchUpward : OptionSpec :=
  ⟨"u", some "no-search-upward", .flag,
    "Don't search in parent folders for a " ++ Configuration.defaultSettingsFile ++ " file.", none⟩

/-- How compiled scripts are cached. -/
def cache : OptionSpec :=
  ⟨"C", some "cache", .single,
    "Specifies how compiled build scripts should be cached. Possible values are: "
      ++ "'rebuild' and 'on'. Default value is 'on'", none⟩

/-- The actions of the tasks are left out. -/
def dryRun : OptionSpec :=
  ⟨"m", some "dry-run", .flag, "Runs the builds with all task actions disabled.", none⟩

/-- Stack traces are printed for every failure. -/
def stacktrace : OptionSpec :=
  ⟨StacktraceLevel.flag.toString, some "stacktrace", .flag,
    "Print out the stacktrace also for user exceptions (e.g. compile error).", none⟩

/-- Stack traces are printed whole. -/
def fullStacktrace : OptionSpec :=
  ⟨StacktraceLevel.fullFlag.toString, some "full-stacktrace", .flag,
    "Print out the full (very verbose) stacktrace for any exceptions.", none⟩

/-- A deprecated flag that stands for a task. -/
def deprecatedFlag (id task description : String) : OptionSpec :=
  ⟨id, some task, .flag, description, some task⟩

/-- Stands for the task `tasks`. -/
def tasks : OptionSpec :=
  deprecatedFlag "t" "tasks" "[deprecated] Show list of all available tasks."

/-- Stands for the task `properties`. -/
def properties : OptionSpec :=
  deprecatedFlag "r" "properties" "[deprecated] Show list of all available project properties."

/-- Stands for the task `dependencies`. -/
def dependencies : OptionSpec :=
  deprecatedFlag "n" "dependencies" "[deprecated] Show list of all project dependencies."

/-- The directory that the build starts in. -/
def projectDir : OptionSpec :=
  ⟨"p", some "project-dir", .single,
    "Specifies the start directory for the build. Defaults to current directory.", none⟩

/-- The user home directory. -/
def userHome : OptionSpec :=
  ⟨"g", some "gradle-user-home", .single, "Specifies the user home directory.", none⟩

/-- A script that is run at the start, before those of later occurrences. -/
def initScript : OptionSpec :=
  ⟨"I", some "init-script", .multiple, "Specifies an initialization script.", none⟩

/-- The settings file. -/
def settingsFile : OptionSpec :=
  ⟨"c", some "settings-file", .single, "Specifies the settings file.", none⟩

/-- The build file. -/
def buildFile : OptionSpec :=
  ⟨"b", some "build-file", .single, "Specifies the build file.", none⟩

/-- A system property, given as `key=value`. -/
def systemProperty : OptionSpec :=
  ⟨"D", some "system-prop", .multiple, "Set system property (e.g. -Dmyprop=myvalue).", none⟩

/-- A project property, given as `key=value`. -/
def projectProperty : OptionSpec :=
  ⟨"P", some "project-prop", .multiple,
    "Set project property for the build script (e.g. -Pmyprop=myvalue).", none⟩

/-- A script that is the whole build. -/
def embeddedScript : OptionSpec :=
  ⟨"e", some "embedded", .single, "Specify an embedded build script.", none⟩

/-- A task that project dependencies run. -/
def dependencyTask : OptionSpec :=
  ⟨"A", some "dep-tasks", .multiple,
    "Specify additional tasks for building project dependencies.", none⟩

/-- Project dependencies run nothing. -/
def noRebuild : OptionSpec :=
  ⟨"a", some "no-rebuild", .flag, "Do not rebuild project dependencies.", none⟩

/-- Tasks are not optimized. -/
def noOpt : OptionSpec := ⟨"no-opt", none, .flag, "Ignore any task optimization.", none⟩

/-- A task that is not run. -/
def excludeTask : OptionSpec :=
  ⟨"x", some "exclude-task", .multiple, "Specify a task to be excluded from execution.", none⟩

/-- Times are measured and reported. -/
def profile : OptionSpec :=
  ⟨"profile", none, .flag,
    "Profiles build execution time and generates a report in the "
      ++ "<build_dir>/reports/profile directory.", none⟩

/-- The deprecated flags, in the order in which they are reported (`SUBCOMMAND_ALIASES`). -/
def aliases : List OptionSpec := [tasks, properties, dependencies]

/-- All build options. -/
def all : List OptionSpec :=
  [noSearchUpward, cache, dryRun, stacktrace, fullStacktrace] ++ aliases
    ++ [projectDir, userHome, initScript, settingsFile, buildFile, systemProperty,
      projectProperty, embeddedScript, dependencyTask, noRebuild, noOpt, excludeTask, profile]

/-- Pairs of an option and those it excludes, in the order in which they are
    looked for. -/
def exclusions : List (OptionSpec × List OptionSpec) :=
  [(embeddedScript, [buildFile, settingsFile, noSearchUpward]),
    (fullStacktrace, [stacktrace]),
    (dependencyTask, [noRebuild])]

end BuildOption

/-- The options of a conversion with the logging options of `source`. -/
def buildOptions (source : LoggingSource) : List OptionSpec := source.options ++ BuildOption.all

/-- Add the options of a conversion to a schema (`configure`). -/
def configureBuild (source : LoggingSource) (s : Schema) : Schema.Registration :=
  s.registerAll (buildOptions source)

/-- Add the logging options to a schema (`configure`). -/
def configureLogging (source : LoggingSource) (s : Schema) : Schema.Registration :=
  s.registerAll source.options

/-- The schema of a conversion. -/
def buildSchema (source : LoggingSource) : Schema := (configureBuild source ∅).schema

theorem registered_buildSchema :
    (buildSchema .standard).options = buildOptions .standard := by
  decide +kernel

end LaunchConfig
