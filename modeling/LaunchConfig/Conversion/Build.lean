import LaunchConfig.Conversion.BuildOption
import LaunchConfig.Text.Quoted

/-!
# From a command line to a configuration

A conversion first checks the command line as a whole, then applies its options
to the configuration that it is given. It tells in log records what it does.

Results:

* `convertWith_of_invalid`: a command line that fails the checks gives its error,
  and no records;
* `convertWith_of_logging_error`: next, the error of the logging options counts;
* `convertWith_of_ok`: otherwise the conversion succeeds.
-/

namespace LaunchConfig
namespace Conversion

/-! ## Checks -/

/-- How the command line asks for the cache to be used; only the last value
    counts. -/
def requestedCache (p : CommandLine) : Except ConversionError (Option CacheUsage) :=
  match p.value? BuildOption.cache.id with
  | none => .ok none
  | some text =>
    match CacheUsage.ofText? text with
    | some usage => .ok (some usage)
    | none =>
      .error (.invalidValue BuildOption.cache.id text (CacheUsage.unknownMessage text))

/-- The first two options found on the command line that exclude each other. -/
def conflict? (p : CommandLine) : Option ConversionError :=
  BuildOption.exclusions.findSome? fun (first, others) =>
    if p.has first.id then
      (others.find? fun o => p.has o.id).map fun o => .conflictingOptions first.id o.id
    else none

/-- Check the values and the options of a command line, before any is applied (`validate`). -/
def validate (p : CommandLine) : Except ConversionError (Option CacheUsage) :=
  match requestedCache p with
  | .error e => .error e
  | .ok usage? =>
    match conflict? p with
    | some e => .error e
    | none => .ok usage?

/-- The stack trace level that a command line asks for (`requested_stacktrace`). -/
def requestedStacktrace? (p : CommandLine) : Option StacktraceLevel :=
  (StacktraceLevel.flags.find? fun f => p.has f.1.toString).map Prod.snd

/-! ## Application -/

/-- Put the properties that are given. -/
def applyProperties (p : CommandLine) (c : Configuration) : Configuration :=
  { c with
    systemProperties := putProperties c.systemProperties (p.values BuildOption.systemProperty.id)
    projectProperties :=
      putProperties c.projectProperties (p.values BuildOption.projectProperty.id) }

/-- A path given as the value of an option, or else `old`. -/
def pathOr (p : CommandLine) (o : OptionSpec) (old : Option RawText) : Option RawText :=
  match p.value? o.id with
  | some path => some (.ofString path)
  | none => old

/-- Set the directories and files that are given, and add the scripts that run at
    the start. -/
def applyPaths (p : CommandLine) (c : Configuration) : Configuration :=
  { c with
    searchUpwards := c.searchUpwards && !p.has BuildOption.noSearchUpward.id
    projectDir := pathOr p BuildOption.projectDir c.projectDir
    userHomeDir := pathOr p BuildOption.userHome c.userHomeDir
    buildFile := pathOr p BuildOption.buildFile c.buildFile
    settingsFile := pathOr p BuildOption.settingsFile c.settingsFile
    initScripts := c.initScripts ++ (p.values BuildOption.initScript.id).map .ofString }

/-- Use the cache as the command line asks, if it does. -/
def applyCache (usage? : Option CacheUsage) (c : Configuration) : Configuration :=
  { c with cacheUsage := usage?.getD c.cacheUsage }

/-- Use the embedded script that is given, if one is. -/
def applyEmbedded (p : CommandLine) (c : Configuration) : Configuration :=
  match p.value? BuildOption.embeddedScript.id with
  | some source => c.useEmbeddedScript source
  | none => c

/-- Print stack traces as the command line asks, if it does. -/
def applyStacktrace (p : CommandLine) (c : Configuration) : Configuration :=
  { c with showStacktrace := (requestedStacktrace? p).getD c.showStacktrace }

/-- Say what is done with project dependencies, if the command line does. -/
def applyDependencies (p : CommandLine) (c : Configuration) : Configuration :=
  { c with
    projectDependencies :=
      if p.has BuildOption.noRebuild.id then .skip
      else if p.has BuildOption.dependencyTask.id then
        .tasks (p.values BuildOption.dependencyTask.id)
      else c.projectDependencies }

/-- Set the tasks that are named, the tasks that are excluded, and the switches
    that are turned on. -/
def applyTasks (p : CommandLine) (c : Configuration) : Configuration :=
  { c with
    taskNames := if p.extra.isEmpty then c.taskNames else p.extra
    excludedTaskNames :=
      if p.has BuildOption.excludeTask.id then p.values BuildOption.excludeTask.id
      else c.excludedTaskNames
    dryRun := c.dryRun || p.has BuildOption.dryRun.id
    noOpt := c.noOpt || p.has BuildOption.noOpt.id
    profile := c.profile || p.has BuildOption.profile.id }

/-- The configuration after its logging settings and properties. -/
def withProperties (p : CommandLine) (l : LoggingSettings) (c : Configuration) : Configuration :=
  applyProperties p (c.withLogging l)

/-- The configuration after its project dependencies. -/
def withDependencies (p : CommandLine) (usage? : Option CacheUsage) (c : Configuration) :
    Configuration :=
  applyDependencies p (applyStacktrace p (applyEmbedded p (applyCache usage? (applyPaths p c))))

/-! ## Records -/

/-- The part of the program that the records come from. -/
def target : String := "commons::converter"

/-- How many options are converted. -/
def countRecord (p : CommandLine) : Record :=
  ⟨.debug, target, "converting " ++ toString p.optionCount ++ " command-line options"⟩

/-- A warning about a deprecated flag. -/
def aliasRecord (o : OptionSpec) : Record :=
  ⟨.warn, target,
    "the " ++ o.label ++ " option is deprecated, run the '" ++ o.task?.getD "" ++ "' task instead"⟩

/-- Warnings about the deprecated flags that are present. -/
def aliasRecords (p : CommandLine) : List Record :=
  (BuildOption.aliases.filter fun o => p.has o.id).map aliasRecord

/-- The properties that are reached. -/
def propertiesRecord (c : Configuration) : Record :=
  ⟨.trace, target,
    "system properties: " ++ Quoted.quoteMap c.systemProperties.entries
      ++ ", project properties: " ++ Quoted.quoteMap c.projectProperties.entries⟩

/-- What is done with project dependencies, as a record shows it. -/
def dependenciesText : ProjectDependencies → String
  | .defaultTasks => "DefaultTasks"
  | .tasks names => "Tasks(" ++ Quoted.quoteList names ++ ")"
  | .skip => "Skip"

/-- What is done with project dependencies. -/
def dependenciesRecord (c : Configuration) : Record :=
  ⟨.trace, target, "project dependencies: " ++ dependenciesText c.projectDependencies⟩

/-- The tasks that are named and those that are excluded. -/
def tasksRecord (c : Configuration) : Record :=
  ⟨.trace, target,
    "tasks: " ++ Quoted.quoteList c.taskNames
      ++ ", excluded: " ++ Quoted.quoteList c.excludedTaskNames⟩

end Conversion

/-! ## Conversion -/

/-- The records of a conversion, and its configuration or error. -/
structure Conversion where
  records : List Record
  result : Except ConversionError Configuration

namespace Conversion

/-- Apply a command line to a configuration (`convert_with`). Options that are absent leave their
    part of it as it is. -/
def convertWith (source : LoggingSource) (p : CommandLine) (c : Configuration) : Conversion :=
  match validate p with
  | .error e => ⟨[], .error e⟩
  | .ok usage? =>
    match source.convert p c.logging with
    | .error e => ⟨countRecord p :: aliasRecords p, .error e⟩
    | .ok l =>
      let c₁ := withProperties p l c
      let c₂ := withDependencies p usage? c₁
      let c₃ := applyTasks p c₂
      ⟨countRecord p :: aliasRecords p
          ++ [propertiesRecord c₁, dependenciesRecord c₂, tasksRecord c₃],
        .ok c₃⟩

/-- The configuration that a valid command line gives. -/
def applied (p : CommandLine) (usage? : Option CacheUsage) (l : LoggingSettings)
    (c : Configuration) : Configuration :=
  applyTasks p (withDependencies p usage? (withProperties p l c))

theorem convertWith_of_invalid {p : CommandLine} {e : ConversionError}
    (h : validate p = .error e) (source : LoggingSource) (c : Configuration) :
    convertWith source p c = ⟨[], .error e⟩ := by
  simp [convertWith, h]

theorem convertWith_of_logging_error {source : LoggingSource} {p : CommandLine}
    {c : Configuration} {usage? : Option CacheUsage} {e : ConversionError}
    (h : validate p = .ok usage?) (hl : source.convert p c.logging = .error e) :
    convertWith source p c = ⟨countRecord p :: aliasRecords p, .error e⟩ := by
  simp [convertWith, h, hl]

theorem convertWith_of_ok {source : LoggingSource} {p : CommandLine} {c : Configuration}
    {usage? : Option CacheUsage} {l : LoggingSettings} (h : validate p = .ok usage?)
    (hl : source.convert p c.logging = .ok l) :
    (convertWith source p c).result = .ok (applied p usage? l c) := by
  simp [convertWith, h, hl, applied]

/-- With the standard logging options only the checks can fail. -/
theorem result_standard (p : CommandLine) (c : Configuration) :
    (convertWith .standard p c).result
      = (validate p).map fun usage? =>
          applied p usage? (LoggingSource.applyStandard p c.logging) c := by
  cases h : validate p with
  | error e => simp [convertWith_of_invalid h, Except.map]
  | ok usage? =>
    rw [convertWith_of_ok h (LoggingSource.convert_standard p c.logging)]
    rfl

end Conversion
end LaunchConfig
