import LaunchConfig.Configuration.Basic
import LaunchConfig.Json.Pretty

/-!
# Configurations as JSON

All nineteen fields are written, in the order of their declaration. A choice is
written as its name; a list of tasks for project dependencies is an object with
the one field `tasks`.
-/

namespace LaunchConfig

/-- What is done with project dependencies, as JSON. -/
def ProjectDependencies.toJson : ProjectDependencies → Json
  | .defaultTasks => .str "default-tasks"
  | .tasks names => .object [("tasks", .ofStrings names)]
  | .skip => .str "skip"

/-- A path that is not UTF-8 is written only as far as it can be read, so a
    configuration is to be `textual` when it is written. -/
def RawText.toJson (t : RawText) : Json := .str t.text

/-- A path, or `null` in its place. -/
def RawText.toJson? (t? : Option RawText) : Json := .ofString? (t?.map RawText.text)

namespace Configuration

/-- The configuration as an object with a field for each of its own. -/
def toJson (c : Configuration) : Json :=
  .object [
    ("log_level", .str c.logLevel.name),
    ("color_output", .bool c.colorOutput),
    ("system_properties", .ofEntries c.systemProperties.entries),
    ("project_properties", .ofEntries c.projectProperties.entries),
    ("search_upwards", .bool c.searchUpwards),
    ("project_dir", RawText.toJson? c.projectDir),
    ("user_home_dir", RawText.toJson? c.userHomeDir),
    ("build_file", RawText.toJson? c.buildFile),
    ("settings_file", RawText.toJson? c.settingsFile),
    ("init_scripts", .list (c.initScripts.map RawText.toJson)),
    ("cache_usage", .str c.cacheUsage.name),
    ("embedded_script", .ofString? c.embeddedScript),
    ("show_stacktrace", .str c.showStacktrace.name),
    ("project_dependencies", c.projectDependencies.toJson),
    ("task_names", .ofStrings c.taskNames),
    ("excluded_task_names", .ofStrings c.excludedTaskNames),
    ("dry_run", .bool c.dryRun),
    ("no_opt", .bool c.noOpt),
    ("profile", .bool c.profile)]

/-- The text of a configuration whose paths are textual. -/
def print? (c : Configuration) : Option String :=
  if c.textual then some c.toJson.pretty else none

end Configuration
end LaunchConfig
