import LaunchConfig.Configuration.CacheUsage
import LaunchConfig.Configuration.Logging
import LaunchConfig.Configuration.Property
import LaunchConfig.Configuration.Stacktrace
import LaunchConfig.Text.RawText

/-!
# Build configurations

What one invocation of a build is to do, and the changes that are made to it as
a whole.

Results:

* `textual_iff`: a configuration has textual paths exactly when each path in it
  is UTF-8.
-/

namespace LaunchConfig

/-- What is done with the projects that a project depends on (`DependencyRebuild`). -/
inductive ProjectDependencies where
  /-- They run their default tasks. -/
  | defaultTasks
  /-- They run exactly these tasks. -/
  | tasks (names : List String)
  /-- They run nothing. -/
  | skip
  deriving DecidableEq, Repr

instance : Inhabited ProjectDependencies := ⟨.defaultTasks⟩

/-- The configuration of one invocation of a build (`BuildConfiguration`). -/
@[ext] structure Configuration where
  logLevel : LogLevel := .lifecycle
  colorOutput : Bool := true
  systemProperties : Dict String := ∅
  projectProperties : Dict String := ∅
  /-- Are parent directories searched for a settings file? -/
  searchUpwards : Bool := true
  projectDir : Option RawText := none
  userHomeDir : Option RawText := none
  buildFile : Option RawText := none
  settingsFile : Option RawText := none
  initScripts : List RawText := []
  cacheUsage : CacheUsage := .on
  /-- A build script that stands in the place of build and settings file. -/
  embeddedScript : Option String := none
  showStacktrace : StacktraceLevel := .internalExceptions
  projectDependencies : ProjectDependencies := .defaultTasks
  taskNames : List String := []
  excludedTaskNames : List String := []
  dryRun : Bool := false
  noOpt : Bool := false
  profile : Bool := false
  deriving DecidableEq

namespace Configuration

instance : Inhabited Configuration := ⟨{}⟩

/-- The file that is searched for in parent directories. -/
def defaultSettingsFile : String := "settings.gradle"

/-- Make `source` the whole build: there is no build or settings file then, and none is searched for
    (`use_embedded_script`). -/
def useEmbeddedScript (c : Configuration) (source : String) : Configuration :=
  { c with
    embeddedScript := some source
    buildFile := none
    settingsFile := none
    searchUpwards := false }

/-- Run one more script at the start (`add_init_script`). -/
def addInitScript (c : Configuration) (script : RawText) : Configuration :=
  { c with initScripts := c.initScripts ++ [script] }

/-- The logging settings of a configuration. -/
def logging (c : Configuration) : LoggingSettings := ⟨c.logLevel, c.colorOutput⟩

/-- The configuration with other logging settings. -/
def withLogging (c : Configuration) (l : LoggingSettings) : Configuration :=
  { c with logLevel := l.level, colorOutput := l.color }

/-- All paths, in order. -/
def paths (c : Configuration) : List RawText :=
  c.projectDir.toList ++ c.userHomeDir.toList ++ c.buildFile.toList ++ c.settingsFile.toList
    ++ c.initScripts

/-- All paths are UTF-8. -/
def textual (c : Configuration) : Bool := c.paths.all RawText.readable

@[simp] theorem logging_withLogging (c : Configuration) (l : LoggingSettings) :
    (c.withLogging l).logging = l := rfl

theorem textual_iff (c : Configuration) : c.textual = true ↔ ∀ p ∈ c.paths, p.readable = true := by
  simp [textual]

end Configuration
end LaunchConfig
