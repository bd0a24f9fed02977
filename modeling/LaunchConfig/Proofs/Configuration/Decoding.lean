import LaunchConfig.Configuration.Encoding
import LaunchConfig.Proofs.Conversion.Effect
import LaunchConfig.Proofs.Json.RoundTrip

/-!
# Configurations are read back from what is printed

A field of a configuration is looked up in a JSON object by its name, and its value is read
there as it is written: a choice by its name, a path or script as a string or `null`, properties
as an object of strings. What is printed of a configuration holds just its nineteen fields, so
that nothing of a configuration is lost in print.

Results:

* `Field.read?_toJson`: each field is read back from the JSON of a configuration;
* `Configuration.print?_determines`: and so it is from the text that is printed.
-/

namespace LaunchConfig

/-! ## Values -/

namespace Json

/-- The string that a value is. -/
def str? : Json → Option String
  | .str s => some s
  | _ => none

/-- The truth value that a value is. -/
def bool? : Json → Option Bool
  | .bool b => some b
  | _ => none

/-- A list whose items can all be read. -/
def list? {α : Type} (item? : Json → Option α) : Json → Option (List α)
  | .list items => items.mapM item?
  | _ => none

/-- A value, or `null` in its place. -/
def orNull? {α : Type} (value? : Json → Option α) : Json → Option (Option α)
  | .null => some none
  | j => (value? j).map some

/-- An object of strings. -/
def entries? : Json → Option (List (String × String))
  | .object fields => fields.mapM fun f => f.2.str?.map (f.1, ·)
  | _ => none

/-- The field of an object. -/
def field? (name : String) : Json → Option Json
  | .object fields => fields.lookup name
  | _ => none

variable {α : Type}

/-- What is written of each is read back of all. -/
theorem mapM_map {β : Type} {read? : β → Option α} {write : α → β} {xs : List α}
    (h : ∀ x ∈ xs, read? (write x) = some x) : (xs.map write).mapM read? = some xs := by
  induction xs with
  | nil => rfl
  | cons x xs ih =>
    rw [List.forall_mem_cons] at h
    rw [List.map_cons, List.mapM_cons, h.1, ih h.2]
    rfl

theorem list?_map {item? : Json → Option α} {write : α → Json} {xs : List α}
    (h : ∀ x ∈ xs, item? (write x) = some x) : (Json.list (xs.map write)).list? item? = some xs :=
  mapM_map h

theorem list?_ofStrings (ss : List String) : (ofStrings ss).list? str? = some ss :=
  list?_map fun _ _ => rfl

theorem entries?_ofEntries (entries : List (String × String)) :
    (ofEntries entries).entries? = some entries :=
  mapM_map fun _ _ => rfl

end Json

/-- The way of using the cache that has the name. -/
def CacheUsage.ofName? (s : String) : Option CacheUsage := all.find? fun u => u.name = s

theorem CacheUsage.ofName?_name (u : CacheUsage) : ofName? u.name = some u := by
  cases u <;> decide

/-- Read what is done with project dependencies. -/
def ProjectDependencies.ofJson? : Json → Option ProjectDependencies
  | .str "default-tasks" => some .defaultTasks
  | .str "skip" => some .skip
  | .object [("tasks", names)] => (names.list? Json.str?).map .tasks
  | _ => none

theorem ProjectDependencies.ofJson?_toJson (d : ProjectDependencies) :
    ofJson? d.toJson = some d := by
  cases d with
  | defaultTasks => rfl
  | skip => rfl
  | tasks names => rw [toJson, ofJson?, Json.list?_ofStrings, Option.map_some]

/-- A path as it is written, if it is UTF-8. -/
def RawText.ofJson? (j : Json) : Option RawText := j.str?.map .ofString

theorem RawText.ofJson?_toJson {t : RawText} (h : t.readable = true) :
    ofJson? t.toJson = some t :=
  congrArg some (ofString_text h)

theorem RawText.orNull?_toJson? {t? : Option RawText} (h : ∀ t ∈ t?, t.readable = true) :
    (RawText.toJson? t?).orNull? RawText.ofJson? = some t? := by
  cases t? with
  | none => rfl
  | some t => exact congrArg (Option.map some) (ofJson?_toJson (h t rfl))

theorem Json.orNull?_ofString? (s? : Option String) : (ofString? s?).orNull? str? = some s? := by
  cases s? <;> rfl

namespace Field

/-- All fields, in the order in which they are written. -/
def all : List Field :=
  [logLevel, colorOutput, systemProperties, projectProperties, searchUpwards, projectDir,
    userHomeDir, buildFile, settingsFile, initScripts, cacheUsage, embeddedScript,
    showStacktrace, projectDependencies, taskNames, excludedTaskNames, dryRun, noOpt, profile]

/-- The name under which the field is written. -/
def key : Field → String
  | logLevel => "log_level"
  | colorOutput => "color_output"
  | systemProperties => "system_properties"
  | projectProperties => "project_properties"
  | searchUpwards => "search_upwards"
  | projectDir => "project_dir"
  | userHomeDir => "user_home_dir"
  | buildFile => "build_file"
  | settingsFile => "settings_file"
  | initScripts => "init_scripts"
  | cacheUsage => "cache_usage"
  | embeddedScript => "embedded_script"
  | showStacktrace => "show_stacktrace"
  | projectDependencies => "project_dependencies"
  | taskNames => "task_names"
  | excludedTaskNames => "excluded_task_names"
  | dryRun => "dry_run"
  | noOpt => "no_opt"
  | profile => "profile"

/-- What the value of the field is written as. -/
def toJson : (f : Field) → f.Value → Json
  | logLevel, l => .str l.name
  | colorOutput, b | searchUpwards, b | dryRun, b | noOpt, b | profile, b => .bool b
  | systemProperties, d | projectProperties, d => .ofEntries d.entries
  | projectDir, t? | userHomeDir, t? | buildFile, t? | settingsFile, t? => RawText.toJson? t?
  | initScripts, ts => .list (ts.map RawText.toJson)
  | cacheUsage, u => .str u.name
  | embeddedScript, s? => .ofString? s?
  | showStacktrace, l => .str l.name
  | projectDependencies, d => d.toJson
  | taskNames, ss | excludedTaskNames, ss => .ofStrings ss

/-- The value of the field that JSON stands for. -/
def ofJson? : (f : Field) → Json → Option f.Value
  | logLevel, j => j.str?.bind LogLevel.ofName?
  | colorOutput, j | searchUpwards, j | dryRun, j | noOpt, j | profile, j => j.bool?
  | systemProperties, j | projectProperties, j => j.entries?.map .ofList
  | projectDir, j | userHomeDir, j | buildFile, j | settingsFile, j => j.orNull? RawText.ofJson?
  | initScripts, j => j.list? RawText.ofJson?
  | cacheUsage, j => j.str?.bind CacheUsage.ofName?
  | embeddedScript, j => j.orNull? Json.str?
  | showStacktrace, j => j.str?.bind StacktraceLevel.ofName?
  | projectDependencies, j => ProjectDependencies.ofJson? j
  | taskNames, j | excludedTaskNames, j => j.list? Json.str?

/-- A field holds no path that is not UTF-8. -/
def Textual : (f : Field) → f.Value → Prop
  | projectDir, t? | userHomeDir, t? | buildFile, t? | settingsFile, t? =>
    ∀ t ∈ t?, t.readable = true
  | initScripts, ts => ∀ t ∈ ts, t.readable = true
  | _, _ => True

/-- The value of a field is read back from what it is written as. -/
theorem ofJson?_toJson (f : Field) {v : f.Value} (h : f.Textual v) :
    f.ofJson? (f.toJson v) = some v := by
  cases f with
  | logLevel => exact LogLevel.ofName?_name v
  | colorOutput | searchUpwards | dryRun | noOpt | profile => rfl
  | systemProperties | projectProperties =>
    rw [toJson, ofJson?, Json.entries?_ofEntries, Option.map_some, Dict.ofList_entries]
  | projectDir | userHomeDir | buildFile | settingsFile => exact RawText.orNull?_toJson? h
  | initScripts => exact Json.list?_map fun t ht => RawText.ofJson?_toJson (h t ht)
  | cacheUsage => exact CacheUsage.ofName?_name v
  | embeddedScript => exact Json.orNull?_ofString? v
  | showStacktrace => exact StacktraceLevel.ofName?_name v
  | projectDependencies => exact ProjectDependencies.ofJson?_toJson v
  | taskNames | excludedTaskNames => exact Json.list?_ofStrings v

end Field

namespace Configuration

theorem field?_toJson (c : Configuration) (f : Field) :
    c.toJson.field? f.key = some (f.toJson (f.get c)) := by
  cases f <;> rfl

theorem textual_get {c : Configuration} (h : c.textual = true) (f : Field) :
    f.Textual (f.get c) := by
  rw [textual_iff] at h
  cases f with
  | projectDir | userHomeDir | buildFile | settingsFile | initScripts =>
    exact fun t ht => h t (by simp_all [paths, Field.get])
  | _ => trivial

/-- **What is printed determines the configuration.** Of a configuration whose paths are UTF-8 a
    text is printed. Read as JSON, with or without the line break after it, the text is an object
    with the nineteen fields in order, and from each of them the field of the configuration is
    read back. So no other such configuration is printed as the same text. -/
theorem print?_determines {c : Configuration} (h : c.textual = true) :
    (∃ text fields, c.print? = some text ∧ Json.read? text = some (.object fields) ∧
      Json.read? (text ++ "\n") = some (.object fields) ∧
      fields.map Prod.fst = Field.all.map Field.key ∧
      ∀ f : Field, ((Json.object fields).field? f.key).bind f.ofJson? = some (f.get c)) ∧
    ∀ d : Configuration, d.textual = true → d.print? = c.print? → d = c := by
  have hread (d : Configuration) (hd : d.textual = true) (f : Field) :
      (d.toJson.field? f.key).bind f.ofJson? = some (f.get d) := by
    rw [field?_toJson, Option.bind_some, f.ofJson?_toJson (textual_get hd f)]
  have hprint (d : Configuration) (hd : d.textual = true) : d.print? = some d.toJson.pretty :=
    if_pos hd
  obtain ⟨hplain, hline⟩ := Json.read?_pretty c.toJson
  refine ⟨⟨c.toJson.pretty, _, hprint c h, hplain, hline, rfl, hread c h⟩, fun d hd hdc => ?_⟩
  rw [hprint d hd, hprint c h] at hdc
  have hjson : d.toJson = c.toJson := Json.pretty_inj (Option.some.inj hdc)
  refine Field.ext fun f => Option.some.inj ?_
  rw [← hread d hd, ← hread c h, hjson]

/-- A configuration of texts that have to be escaped or look like something else, and of empty
    lists and objects. -/
def escapes : Configuration where
  systemProperties := .ofList [("a \"b\"", "\\"), ("\t\x01", "é𝄞")]
  initScripts := [.ofString "\n"]
  projectDependencies := .tasks []
  taskNames := ["null", ""]

/-- It is read back, and is not printed as it would be with an empty script. -/
theorem print?_determines_escapes :
    escapes.textual = true ∧
    (∃ text fields, escapes.print? = some text ∧ Json.read? text = some (.object fields) ∧
      Json.read? (text ++ "\n") = some (.object fields) ∧
      fields.map Prod.fst = Field.all.map Field.key ∧
      ∀ f : Field, ((Json.object fields).field? f.key).bind f.ofJson? = some (f.get escapes)) ∧
    { escapes with embeddedScript := some "" }.print? ≠ escapes.print? := by
  have h : escapes.textual = true := by decide
  have hdetermines := print?_determines h
  refine ⟨h, hdetermines.1, fun heq => ?_⟩
  have heq' := hdetermines.2 { escapes with embeddedScript := some "" } (by decide) heq
  cases congrArg Configuration.embeddedScript heq'

end Configuration
end LaunchConfig
