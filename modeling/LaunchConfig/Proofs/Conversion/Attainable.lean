import LaunchConfig.Proofs.Arguments.Request
import LaunchConfig.Proofs.Configuration.Merging
import LaunchConfig.Proofs.Conversion.Effect
import LaunchConfig.Proofs.Conversion.Failure
import LaunchConfig.Proofs.Text.Utf8

/-!
# Which configurations can be asked for

Not every configuration is what some arguments make of the default one. A key that is
read from `key=value` holds no `=`, a list of tasks for project dependencies is never
empty, and an embedded script leaves no file and no search for one. These are all the
limits: any other configuration with textual paths can be asked for, by a command line
that says of every field what it is to hold.

Results:

* `putProperties_texts`: a dictionary is put together again from its properties;
* `consistent_of_result`, `textual_of_result`: the limits to what a conversion makes of
  the default configuration;
* `result_request`: within them a configuration is what comes of requesting it;
* `exists_arguments_iff`: which configurations arguments can ask for.
-/

namespace LaunchConfig

/-! ## Properties -/

/-- No key of the dictionary holds `=`. -/
def KeysWithoutEquals (d : Dict String) : Prop := ∀ k ∈ d.keys, '=' ∉ k.toList

/-- The properties of a dictionary, as they are given. -/
def propertyTexts (d : Dict String) : List String :=
  d.entries.map fun e => Property.text ⟨e.1, e.2⟩

theorem KeysWithoutEquals.putProperties {d : Dict String} (h : KeysWithoutEquals d)
    (texts : List String) : KeysWithoutEquals (putProperties d texts) := by
  intro k hk
  rw [Dict.mem_keys_iff, Dict.contains, find?_putProperties, Option.isSome_or,
    Bool.or_eq_true] at hk
  rcases hk with hput | hold
  · obtain ⟨p, hp, rfl⟩ := Property.exists_mem_of_lastValue? hput
    obtain ⟨text, -, rfl⟩ := List.mem_map.1 hp
    exact Property.not_mem_key text
  · exact h k (Dict.mem_keys_iff.2 hold)

/-- Entries whose keys hold no `=` are put as properties as they are. -/
theorem putProperties_map_text {l : List (String × String)} (hkeys : ∀ e ∈ l, '=' ∉ e.1.toList)
    (d : Dict String) :
    putProperties d (l.map fun e => Property.text ⟨e.1, e.2⟩)
      = l.foldl (fun d (k, v) => d.insert k v) d := by
  induction l generalizing d with
  | nil => rfl
  | cons e l ih =>
    rw [List.forall_mem_cons] at hkeys
    rw [List.map_cons, putProperties_cons, Property.ofText_text hkeys.1, ih hkeys.2,
      List.foldl_cons]

/-- A dictionary is put together again from its properties. -/
theorem putProperties_texts {d : Dict String} (h : KeysWithoutEquals d) :
    putProperties ∅ (propertyTexts d) = d := by
  have hkeys : ∀ e ∈ d.entries, '=' ∉ e.1.toList := fun e he => h e.1 (List.mem_map_of_mem he)
  rw [propertyTexts, putProperties_map_text hkeys]
  exact d.ofList_entries

/-! ## Consistent configurations -/

namespace Configuration

/-- What the fields of a configuration say fits together, and can be said by options. -/
structure Consistent (c : Configuration) : Prop where
  systemKeys : KeysWithoutEquals c.systemProperties
  projectKeys : KeysWithoutEquals c.projectProperties
  dependencies : c.projectDependencies ≠ .tasks []
  embedded : c.embeddedScript = none ∨
    c.buildFile = none ∧ c.settingsFile = none ∧ c.searchUpwards = false

/-- The project directory and the user home directory are UTF-8. -/
def DirsReadable (c : Configuration) : Prop :=
  (∀ t ∈ c.projectDir, t.readable = true) ∧ ∀ t ∈ c.userHomeDir, t.readable = true

/-- A configuration with no more than its directories set. -/
def ofDirs (projectDir userHomeDir : Option RawText) : Configuration :=
  { projectDir := projectDir, userHomeDir := userHomeDir }

end Configuration

variable {c : Configuration} {p : CommandLine}

namespace Conversion

/-! ## What comes of the default configuration -/

theorem readable_path (text? : Option String) :
    ∀ t ∈ (text?.map RawText.ofString).or none, t.readable = true := by
  intro t ht
  rw [Option.or_none, Option.mem_def, Option.map_eq_some_iff] at ht
  obtain ⟨text, -, rfl⟩ := ht
  rfl

theorem readable_clearedPath (cleared : Bool) (text? : Option String) :
    ∀ t ∈ if cleared then none else (text?.map RawText.ofString).or none, t.readable = true := by
  cases cleared with
  | true => exact nofun
  | false => exact readable_path text?

/-- Paths other than the directories that were set come from the command line. -/
theorem textual_iff_of_result {dir? home? : Option RawText}
    (h : (convertWith .standard p (.ofDirs dir? home?)).result = .ok c) :
    c.textual = true ↔ c.DirsReadable := by
  have hget := Field.get_of_result_eq_ok h
  have hbuild : c.buildFile = _ := hget .buildFile
  have hsettings : c.settingsFile = _ := hget .settingsFile
  have hscripts : c.initScripts = [] ++ (p.values "I").map .ofString := hget .initScripts
  rw [Configuration.textual_iff]
  constructor
  · intro hall
    exact ⟨fun t ht => hall t (by simp_all [Configuration.paths]),
      fun t ht => hall t (by simp_all [Configuration.paths])⟩
  · rintro ⟨hproject, hhome⟩ t ht
    simp only [Configuration.paths, List.mem_append, Option.mem_toList] at ht
    rcases ht with (((ht | ht) | ht) | ht) | ht
    · exact hproject t ht
    · exact hhome t ht
    · exact readable_clearedPath _ _ t (hbuild ▸ ht)
    · exact readable_clearedPath _ _ t (hsettings ▸ ht)
    · rw [hscripts, List.nil_append, List.mem_map] at ht
      obtain ⟨text, -, rfl⟩ := ht
      rfl

section OfResult

variable (h : (convertWith .standard p {}).result = .ok c)

include h

theorem textual_of_result : c.textual = true := by
  have hget := Field.get_of_result_eq_ok h
  have hproject : c.projectDir = _ := hget .projectDir
  have huser : c.userHomeDir = _ := hget .userHomeDir
  have hnone : (convertWith .standard p (.ofDirs none none)).result = .ok c := h
  exact (textual_iff_of_result hnone).2
    ⟨hproject ▸ readable_path _, huser ▸ readable_path _⟩

/-- Tasks are named for project dependencies only by an option with a value. -/
theorem dependencies_of_result (hvalued : p.has "A" = true → p.values "A" ≠ []) :
    c.projectDependencies ≠ .tasks [] := by
  have hdeps : c.projectDependencies
      = if p.has "a" then .skip else if p.has "A" then .tasks (p.values "A")
        else .defaultTasks := Field.get_of_result_eq_ok h .projectDependencies
  rw [hdeps]
  cases p.has "a" with
  | true => simp
  | false =>
    cases hA : p.has "A" with
    | true => simpa using hvalued hA
    | false => simp

/-- An embedded script leaves no file and no search for one. -/
theorem embedded_of_result : c.embeddedScript = none ∨
    c.buildFile = none ∧ c.settingsFile = none ∧ c.searchUpwards = false := by
  have hget := Field.get_of_result_eq_ok h
  have hscript : c.embeddedScript = (p.value? "e").or none := hget .embeddedScript
  have hbuild : c.buildFile = if (p.value? "e").isSome then none
    else ((p.value? "b").map .ofString).or none := hget .buildFile
  have hsettings : c.settingsFile = if (p.value? "e").isSome then none
    else ((p.value? "c").map .ofString).or none := hget .settingsFile
  have hsearch : c.searchUpwards = if (p.value? "e").isSome then false
    else true && !p.has "u" := hget .searchUpwards
  cases he : p.value? "e" with
  | none =>
    left
    rw [hscript, he]
    rfl
  | some source =>
    right
    rw [he] at hbuild hsettings hsearch
    exact ⟨hbuild, hsettings, hsearch⟩

/-- What comes from a command line whose options have their values is consistent. -/
theorem consistent_of_result (hvalued : p.has "A" = true → p.values "A" ≠ []) :
    c.Consistent := by
  have hget := Field.get_of_result_eq_ok h
  have hsystem : c.systemProperties = putProperties ∅ (p.values "D") := hget .systemProperties
  have hproject : c.projectProperties = putProperties ∅ (p.values "P") := hget .projectProperties
  have hempty : KeysWithoutEquals ∅ := fun k hk => by cases hk
  refine ⟨?_, ?_, dependencies_of_result h hvalued, embedded_of_result h⟩
  · rw [hsystem]
    exact hempty.putProperties _
  · rw [hproject]
    exact hempty.putProperties _

end OfResult
end Conversion

/-! ## The request for a configuration -/

/-- The tasks that project dependencies are told to run. -/
def ProjectDependencies.names : ProjectDependencies → List String
  | tasks names => names
  | defaultTasks | skip => []

namespace Configuration

/-- What a command line is to say so that it gives the configuration. -/
def request (c : Configuration) : Request where
  flag
    | "q" => c.logLevel = .quiet
    | "i" => c.logLevel = .info
    | "d" => c.logLevel = .debug
    | "no-color" => !c.colorOutput
    -- The embedded script ends the search by itself, and excludes the flag.
    | "u" => !c.searchUpwards && c.embeddedScript.isNone
    | "S" => c.showStacktrace = .alwaysFull
    | "s" => c.showStacktrace = .always
    | "a" => c.projectDependencies = .skip
    | "m" => c.dryRun
    | "no-opt" => c.noOpt
    | "profile" => c.profile
    | _ => false
  value?
    | "p" => c.projectDir.map RawText.text
    | "g" => c.userHomeDir.map RawText.text
    | "b" => c.buildFile.map RawText.text
    | "c" => c.settingsFile.map RawText.text
    | "C" => some c.cacheUsage.name
    | "e" => c.embeddedScript
    | _ => none
  values
    | "D" => propertyTexts c.systemProperties
    | "P" => propertyTexts c.projectProperties
    | "I" => c.initScripts.map RawText.text
    | "A" => c.projectDependencies.names
    | "x" => c.excludedTaskNames
    | _ => []
  extra := c.taskNames

/-- The command line that asks for the configuration. -/
def commandLine (c : Configuration) : CommandLine := c.request.commandLine (buildSchema .standard)

/-- There is an option with this id that takes values in this way. -/
def Takes (arity : Arity) (id : String) : Prop :=
  ∃ o ∈ buildOptions .standard, o.id = id ∧ o.arity = arity

instance (arity : Arity) (id : String) : Decidable (Takes arity id) :=
  inferInstanceAs (Decidable (∃ o ∈ buildOptions .standard, o.id = id ∧ o.arity = arity))

theorem Takes.exists_mem {arity : Arity} {id : String} (h : Takes arity id) :
    ∃ o ∈ (buildSchema .standard).options, o.id = id ∧ o.arity = arity := by
  rwa [registered_buildSchema]

section Questions

variable {id : String} (c)

theorem has_flag (h : Takes .flag id) : c.commandLine.has id = c.request.flag id := by
  obtain ⟨o, ho, rfl, hflag⟩ := h.exists_mem
  exact c.request.has_flag registered_buildSchema_standard.distinct ho hflag

theorem has_single (h : Takes .single id) :
    c.commandLine.has id = (c.request.value? id).isSome := by
  obtain ⟨o, ho, rfl, hsingle⟩ := h.exists_mem
  exact c.request.has_single registered_buildSchema_standard.distinct ho hsingle

theorem value?_single (h : Takes .single id) : c.commandLine.value? id = c.request.value? id := by
  obtain ⟨o, ho, rfl, hsingle⟩ := h.exists_mem
  exact c.request.value?_single registered_buildSchema_standard.distinct ho hsingle

theorem has_multiple (h : Takes .multiple id) :
    c.commandLine.has id = !(c.request.values id).isEmpty := by
  obtain ⟨o, ho, rfl, hmultiple⟩ := h.exists_mem
  exact c.request.has_multiple registered_buildSchema_standard.distinct ho hmultiple

theorem values_multiple (h : Takes .multiple id) :
    c.commandLine.values id = c.request.values id := by
  obtain ⟨o, ho, rfl, hmultiple⟩ := h.exists_mem
  exact c.request.values_multiple registered_buildSchema_standard.distinct ho hmultiple

theorem extra_commandLine : c.commandLine.extra = c.taskNames :=
  c.request.extra_commandLine

theorem has_noSearchUpward :
    c.commandLine.has "u" = (!c.searchUpwards && c.embeddedScript.isNone) :=
  c.has_flag (by decide)

theorem value?_cache : c.commandLine.value? "C" = some c.cacheUsage.name :=
  c.value?_single (by decide)

theorem has_fullStacktrace :
    c.commandLine.has "S" = decide (c.showStacktrace = .alwaysFull) :=
  c.has_flag (by decide)

theorem has_stacktrace : c.commandLine.has "s" = decide (c.showStacktrace = .always) :=
  c.has_flag (by decide)

theorem has_noRebuild : c.commandLine.has "a" = decide (c.projectDependencies = .skip) :=
  c.has_flag (by decide)

theorem has_dependencyTask : c.commandLine.has "A" = !c.projectDependencies.names.isEmpty :=
  c.has_multiple (by decide)

end Questions

/-- No option is given that stands for a task. -/
theorem task?_of_has {o : OptionSpec} (ho : o ∈ (buildSchema .standard).options)
    (h : c.commandLine.has o.id = true) : o.task? = none := by
  have haliases : ∀ o ∈ buildOptions .standard, o.task? ≠ none →
      o.arity = .flag ∧ o.id ∈ ["t", "r", "n"] := by
    decide
  by_contra htask
  obtain ⟨hflag, hid⟩ := haliases o (registered_buildSchema ▸ ho) htask
  rw [commandLine, c.request.has_flag registered_buildSchema_standard.distinct ho hflag] at h
  simp only [List.mem_cons, List.not_mem_nil, or_false] at hid
  rcases hid with hid | hid | hid <;> rw [hid] at h <;> cases h

/-! ## What comes of a request -/

theorem logLevel_request : (requestedLevel? c.commandLine).getD .lifecycle = c.logLevel := by
  have hquiet : c.commandLine.has "q" = decide (c.logLevel = .quiet) := c.has_flag (by decide)
  have hinfo : c.commandLine.has "i" = decide (c.logLevel = .info) := c.has_flag (by decide)
  have hdebug : c.commandLine.has "d" = decide (c.logLevel = .debug) := c.has_flag (by decide)
  simp only [requestedLevel?, LoggingOption.levels, List.filter_cons, List.filter_nil,
    LoggingOption.quiet, LoggingOption.info, LoggingOption.debug, hquiet, hinfo, hdebug]
  cases c.logLevel <;> rfl

theorem path_request {path? : Option RawText} (h : ∀ t ∈ path?, t.readable = true) :
    ((path?.map RawText.text).map .ofString).or none = path? := by
  cases path? with
  | none => rfl
  | some t => exact congrArg some (RawText.ofString_text (h t rfl))

theorem clearedPath_request {path? : Option RawText} {script? : Option String}
    (h : ∀ t ∈ path?, t.readable = true) (hcleared : script? = none ∨ path? = none) :
    (if script?.isSome then none else ((path?.map RawText.text).map .ofString).or none)
      = path? := by
  rcases hcleared with rfl | rfl
  · exact path_request h
  · cases script? <;> rfl

/-- What is requested of a field is what it comes to hold. -/
theorem effect_request (htextual : c.textual = true) (hc : c.Consistent) (f : Field) :
    f.effect c.commandLine (f.get {}) = f.get c := by
  have hreadable := c.textual_iff.1 htextual
  have hscript : c.commandLine.value? "e" = c.embeddedScript := c.value?_single (by decide)
  cases f with
  | logLevel => exact c.logLevel_request
  | colorOutput =>
    have hflag : c.commandLine.has "no-color" = !c.colorOutput := c.has_flag (by decide)
    rw [Field.effect, hflag]
    exact Bool.not_not _
  | systemProperties =>
    have hvalues : c.commandLine.values "D" = propertyTexts c.systemProperties :=
      c.values_multiple (by decide)
    rw [Field.effect, hvalues]
    exact putProperties_texts hc.systemKeys
  | projectProperties =>
    have hvalues : c.commandLine.values "P" = propertyTexts c.projectProperties :=
      c.values_multiple (by decide)
    rw [Field.effect, hvalues]
    exact putProperties_texts hc.projectKeys
  | searchUpwards =>
    rw [Field.effect, hscript, has_noSearchUpward]
    show _ = c.searchUpwards
    rcases hc.embedded with hnone | ⟨-, -, hsearch⟩
    · simp [hnone, Field.get]
    · cases c.embeddedScript <;> simp [hsearch]
  | projectDir =>
    have hvalue : c.commandLine.value? "p" = c.projectDir.map RawText.text :=
      c.value?_single (by decide)
    rw [Field.effect, hvalue]
    exact path_request fun t ht => hreadable t (by simp [paths, Option.mem_def.1 ht])
  | userHomeDir =>
    have hvalue : c.commandLine.value? "g" = c.userHomeDir.map RawText.text :=
      c.value?_single (by decide)
    rw [Field.effect, hvalue]
    exact path_request fun t ht => hreadable t (by simp [paths, Option.mem_def.1 ht])
  | buildFile =>
    have hvalue : c.commandLine.value? "b" = c.buildFile.map RawText.text :=
      c.value?_single (by decide)
    rw [Field.effect, hscript, hvalue]
    exact clearedPath_request (fun t ht => hreadable t (by simp [paths, Option.mem_def.1 ht]))
      (hc.embedded.imp_right (·.1))
  | settingsFile =>
    have hvalue : c.commandLine.value? "c" = c.settingsFile.map RawText.text :=
      c.value?_single (by decide)
    rw [Field.effect, hscript, hvalue]
    exact clearedPath_request (fun t ht => hreadable t (by simp [paths, Option.mem_def.1 ht]))
      (hc.embedded.imp_right (·.2.1))
  | initScripts =>
    have hvalues : c.commandLine.values "I" = c.initScripts.map RawText.text :=
      c.values_multiple (by decide)
    rw [Field.effect, hvalues, List.map_map]
    have hback : ∀ t ∈ c.initScripts, (RawText.ofString ∘ RawText.text) t = t :=
      fun t ht => RawText.ofString_text (hreadable t (by simp [paths, ht]))
    show [] ++ c.initScripts.map (RawText.ofString ∘ RawText.text) = c.initScripts
    rw [List.nil_append, List.map_congr_left hback]
    exact List.map_id' _
  | cacheUsage =>
    rw [Field.effect, value?_cache, Option.bind_some, CacheUsage.ofText?_name]
    rfl
  | embeddedScript =>
    rw [Field.effect, hscript]
    exact Option.or_none
  | showStacktrace =>
    rw [Field.effect, has_fullStacktrace, has_stacktrace]
    show _ = c.showStacktrace
    cases c.showStacktrace <;> rfl
  | projectDependencies =>
    have hvalues : c.commandLine.values "A" = c.projectDependencies.names :=
      c.values_multiple (by decide)
    have hne := hc.dependencies
    rw [Field.effect, has_noRebuild, has_dependencyTask, hvalues]
    show _ = c.projectDependencies
    cases hdeps : c.projectDependencies with
    | defaultTasks => rfl
    | skip => rfl
    | tasks names =>
      cases names with
      | nil => exact absurd hdeps hne
      | cons name names => rfl
  | taskNames =>
    rw [Field.effect, extra_commandLine]
    show (if c.taskNames.isEmpty then [] else c.taskNames) = c.taskNames
    cases c.taskNames <;> rfl
  | excludedTaskNames =>
    have hhas : c.commandLine.has "x" = !c.excludedTaskNames.isEmpty :=
      c.has_multiple (by decide)
    have hvalues : c.commandLine.values "x" = c.excludedTaskNames :=
      c.values_multiple (by decide)
    rw [Field.effect, hhas, hvalues]
    show (if !c.excludedTaskNames.isEmpty then c.excludedTaskNames else []) = c.excludedTaskNames
    cases c.excludedTaskNames <;> rfl
  | dryRun =>
    have hflag : c.commandLine.has "m" = c.dryRun := c.has_flag (by decide)
    rw [Field.effect, hflag]
    rfl
  | noOpt =>
    have hflag : c.commandLine.has "no-opt" = c.noOpt := c.has_flag (by decide)
    rw [Field.effect, hflag]
    rfl
  | profile =>
    have hflag : c.commandLine.has "profile" = c.profile := c.has_flag (by decide)
    rw [Field.effect, hflag]
    rfl

/-- The command line that asks for a consistent configuration breaks no rule. -/
theorem not_broken_commandLine (hc : c.Consistent) (r : Rule) (e : ConversionError) :
    ¬ r.Broken c.commandLine e := by
  intro hbroken
  cases hbroken with
  | @cacheUsage text hlast hon hrebuild =>
    obtain rfl : c.cacheUsage.name = text := Option.some.inj (c.value?_cache.symm.trans hlast)
    cases husage : c.cacheUsage with
    | on =>
      rw [husage] at hon
      exact absurd hon (by decide)
    | rebuild =>
      rw [husage] at hrebuild
      exact absurd hrebuild (by decide)
  | @embeddedScript x he hx =>
    have hscript : c.commandLine.has "e" = c.embeddedScript.isSome :=
      c.has_single (by decide)
    have hbuild : c.commandLine.has "b" = (c.buildFile.map RawText.text).isSome :=
      c.has_single (by decide)
    have hsettings : c.commandLine.has "c" = (c.settingsFile.map RawText.text).isSome :=
      c.has_single (by decide)
    rw [hscript] at he
    rcases hc.embedded with hnone | ⟨hnobuild, hnosettings, -⟩
    · rw [hnone] at he
      cases he
    -- Beside a script the files are absent, and the request leaves out the flag.
    · have habsent : ∀ y ∈ ["b", "c", "u"], c.commandLine.has y = false := by
        simp [hbuild, hnobuild, hsettings, hnosettings, has_noSearchUpward, he]
      cases (habsent x (List.mem_of_find?_eq_some hx)).symm.trans (List.find?_some hx)
  | stacktrace hS hs =>
    rw [has_fullStacktrace, decide_eq_true_eq] at hS
    rw [has_stacktrace, decide_eq_true_eq, hS] at hs
    cases hs
  | dependencies hA ha =>
    rw [has_noRebuild, decide_eq_true_eq] at ha
    rw [has_dependencyTask, ha] at hA
    cases hA

/-- A consistent configuration with textual paths is what comes of asking for it. -/
theorem result_commandLine (htextual : c.textual = true) (hc : c.Consistent) :
    (Conversion.convertWith .standard c.commandLine {}).result = .ok c := by
  obtain ⟨c', hc'⟩ := (Conversion.exists_result_iff (t := {})).2 (not_broken_commandLine hc)
  have heq : c' = c := Field.ext fun f =>
    (Field.get_of_result_eq_ok hc' f).trans (effect_request htextual hc f)
  rw [hc', heq]

/-- **Which configurations can be asked for.** Some arguments are accepted and make the
    configuration of the default one exactly if its paths are textual and it is
    consistent. -/
theorem exists_arguments_iff (c : Configuration) :
    (∃ (args : List (List UInt8)) (p : CommandLine),
      (buildSchema .standard).parse (args.map .ofBytes) = .ok p ∧
        (Conversion.convertWith .standard p {}).result = .ok c) ↔
      c.textual = true ∧ c.Consistent := by
  have hd : (buildSchema .standard).Distinct := registered_buildSchema_standard.distinct
  have ht : (buildSchema .standard).Typable := typable_buildSchema_standard
  constructor
  · rintro ⟨args, p, hp, hc⟩
    have hproper : ∀ a ∈ args.map RawText.ofBytes, a.Proper := by
      rw [List.forall_mem_map]
      exact fun a _ => RawText.proper_ofBytes a
    have hvalued : p.has "A" = true → p.values "A" ≠ [] := by
      have hmem : BuildOption.dependencyTask ∈ (buildSchema .standard).options := by
        rw [registered_buildSchema]
        decide
      exact (Schema.conforms_of_parse hd ht hproper hp).valued _ hmem rfl
    exact ⟨Conversion.textual_of_result hc, Conversion.consistent_of_result hc hvalued⟩
  · rintro ⟨htextual, hc⟩
    have hwritten : (buildSchema .standard).parse
        ((c.commandLine.written (buildSchema .standard)).map .ofString) = .ok c.commandLine :=
      Schema.parse_written hd ht (c.request.conforms_commandLine hd) fun _ => task?_of_has
    rw [← RawText.map_ofBytes_eq_iff.2 rfl] at hwritten
    exact ⟨_, c.commandLine, hwritten, result_commandLine htextual hc⟩

end Configuration
end LaunchConfig
