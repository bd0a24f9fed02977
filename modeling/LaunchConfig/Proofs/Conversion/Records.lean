import LaunchConfig.Proofs.Arguments.Building
import LaunchConfig.Proofs.Conversion.Effect
import LaunchConfig.Proofs.Text.Quoting

/-!
# What a conversion logs

A conversion logs while it goes on: how many options there are and which of them are deprecated,
before any is applied, and then the fields that a group of options has set. No later stage sets
these fields again, so that the records show the configuration that is reached.

Logging options that log something themselves are not considered.

Results:

* `announcements_eq`: what is logged before any option is applied;
* `propertiesRecord_inj`, `dependenciesRecord_inj`, `tasksRecord_inj`: the fields that a record
  shows can be told from it;
* `records_of_ok`: what is logged of a conversion that succeeds;
* `convertWith_records`: what is logged of any conversion.
-/

namespace LaunchConfig
namespace Conversion

variable {source : LoggingSource} {p : CommandLine} {c d : Configuration}

/-! ## Before any option is applied -/

/-- A warning for each deprecated flag that is present. -/
def deprecations (p : CommandLine) : List Record :=
  ([("t", "tasks"), ("r", "properties"), ("n", "dependencies")].filter fun f => p.has f.1).map
    fun f => ⟨.warn, "commons::converter",
      "the -" ++ f.1 ++ " option is deprecated, run the '" ++ f.2 ++ "' task instead"⟩

/-- The records that announce a conversion of so many options. -/
def announcements (p : CommandLine) (count : Nat) : List Record :=
  ⟨.debug, "commons::converter", "converting " ++ toString count ++ " command-line options"⟩ ::
    deprecations p

theorem aliasRecords_eq (p : CommandLine) : aliasRecords p = deprecations p := by
  have ht : BuildOption.tasks.id = "t" := rfl
  have hr : BuildOption.properties.id = "r" := rfl
  have hn : BuildOption.dependencies.id = "n" := rfl
  simp only [aliasRecords, deprecations, BuildOption.aliases, List.filter_cons, List.filter_nil,
    ht, hr, hn]
  cases p.has "t" <;> cases p.has "r" <;> cases p.has "n" <;> decide

theorem announcements_eq (p : CommandLine) :
    announcements p p.optionCount = countRecord p :: aliasRecords p := by
  rw [aliasRecords_eq]
  rfl

/-! ## What a record shows -/

theorem propertiesRecord_inj :
    propertiesRecord c = propertiesRecord d ↔
      c.systemProperties = d.systemProperties ∧ c.projectProperties = d.projectProperties := by
  constructor
  · intro h
    have hmessage := congrArg (fun r => r.message.toList) h
    simp only [propertiesRecord, String.toList_append] at hmessage
    obtain ⟨hsystem, hproject⟩ := Prod.mk.inj
      ((Quoted.delimits_quoteMap.pair Quoted.delimits_quoteMap _ _).injective
        (x := (c.systemProperties.entries, c.projectProperties.entries))
        (y := (d.systemProperties.entries, d.projectProperties.entries)) hmessage)
    exact ⟨Dict.ext fun k => congrArg (Dict.lookup k) hsystem,
      Dict.ext fun k => congrArg (Dict.lookup k) hproject⟩
  · rintro ⟨hsystem, hproject⟩
    rw [propertiesRecord, hsystem, hproject, propertiesRecord]

/-- What is done with project dependencies can be told from its text: the texts begin with
    different letters, and the tasks stand in a list. -/
theorem dependenciesText_inj {a b : ProjectDependencies}
    (h : dependenciesText a = dependenciesText b) : a = b := by
  have hchars := congrArg String.toList h
  have hhead := congrArg List.head? hchars
  cases a with
  | defaultTasks =>
    cases b with
    | defaultTasks => rfl
    | tasks | skip => simp [dependenciesText] at hhead
  | tasks names =>
    cases b with
    | tasks names' =>
      simp only [dependenciesText, String.toList_append, List.append_assoc,
        List.append_cancel_left_eq] at hchars
      rw [(Quoted.delimits_quoteList hchars).1]
    | defaultTasks | skip => simp [dependenciesText] at hhead
  | skip =>
    cases b with
    | skip => rfl
    | defaultTasks | tasks => simp [dependenciesText] at hhead

theorem dependenciesRecord_inj :
    dependenciesRecord c = dependenciesRecord d ↔
      c.projectDependencies = d.projectDependencies := by
  constructor
  · intro h
    have hmessage := congrArg Record.message h
    simp only [dependenciesRecord, String.append_right_inj] at hmessage
    exact dependenciesText_inj hmessage
  · intro h
    rw [dependenciesRecord, h, dependenciesRecord]

theorem tasksRecord_inj :
    tasksRecord c = tasksRecord d ↔
      c.taskNames = d.taskNames ∧ c.excludedTaskNames = d.excludedTaskNames := by
  constructor
  · intro h
    have hmessage := congrArg (fun r => r.message.toList) h
    simp only [tasksRecord, String.toList_append] at hmessage
    exact Prod.mk.inj ((Quoted.delimits_quoteList.pair Quoted.delimits_quoteList _ _).injective
      (x := (c.taskNames, c.excludedTaskNames)) (y := (d.taskNames, d.excludedTaskNames)) hmessage)
  · rintro ⟨htasks, hexcluded⟩
    rw [tasksRecord, htasks, hexcluded, tasksRecord]

/-! ## A whole conversion -/

/-- The stages that come after a record leave the fields alone that it shows. -/
theorem records_convertWith {usage? : Option CacheUsage} {l : LoggingSettings}
    (h : validate p = .ok usage?) (hl : source.convert p c.logging = .ok l) :
    (convertWith source p c).records = countRecord p :: (aliasRecords p
      ++ [propertiesRecord (applied p usage? l c), dependenciesRecord (applied p usage? l c),
        tasksRecord (applied p usage? l c)]) := by
  have hproperties : propertiesRecord (withProperties p l c)
      = propertiesRecord (applied p usage? l c) := by
    refine propertiesRecord_inj.2 ?_
    rw [applied_eq]
    exact ⟨rfl, rfl⟩
  have hdependencies : dependenciesRecord (withDependencies p usage? (withProperties p l c))
      = dependenciesRecord (applied p usage? l c) := dependenciesRecord_inj.2 rfl
  simp only [convertWith, h, hl, hproperties, hdependencies]
  rfl

/-- What is logged of a conversion depends on the number of options, the deprecated flags and
    the configuration that is reached. -/
theorem records_of_ok (h : (convertWith source p c).result = .ok d) :
    (convertWith source p c).records = countRecord p :: (aliasRecords p
      ++ [propertiesRecord d, dependenciesRecord d, tasksRecord d]) := by
  obtain ⟨usage?, l, hv, hl, rfl⟩ := result_eq_ok_iff.1 h
  exact records_convertWith hv hl

/-- **The log of a conversion says what comes of it.** If the checks fail nothing is logged. Else
    the number of options that are present is logged, and a warning for each deprecated flag
    among them. If the logging options fail, that is all; if not, three records follow, which are
    those of the configuration that is returned, and from which its properties, its project
    dependencies, and its tasks and excluded tasks can be told. -/
theorem convertWith_records (source : LoggingSource) (p : CommandLine) (t : Configuration) :
    (∀ e, validate p = .error e → (convertWith source p t).records = []) ∧
    (∀ usage?, validate p = .ok usage? →
      ∃ ids : List String, ids.Nodup ∧ (∀ id, id ∈ ids ↔ p.has id = true) ∧
        (∀ e, source.convert p ⟨t.logLevel, t.colorOutput⟩ = .error e →
          (convertWith source p t).result = .error e ∧
          (convertWith source p t).records = announcements p ids.length) ∧
        ∀ l, source.convert p ⟨t.logLevel, t.colorOutput⟩ = .ok l →
          ∃ c, (convertWith source p t).result = .ok c ∧
            (convertWith source p t).records = announcements p ids.length
              ++ [propertiesRecord c, dependenciesRecord c, tasksRecord c]) ∧
    ∀ c d : Configuration,
      ((propertiesRecord c).severity = .trace ∧ (dependenciesRecord c).severity = .trace ∧
        (tasksRecord c).severity = .trace) ∧
      (propertiesRecord c = propertiesRecord d ↔
        c.systemProperties = d.systemProperties ∧ c.projectProperties = d.projectProperties) ∧
      (dependenciesRecord c = dependenciesRecord d ↔
        c.projectDependencies = d.projectDependencies) ∧
      (tasksRecord c = tasksRecord d ↔
        c.taskNames = d.taskNames ∧ c.excludedTaskNames = d.excludedTaskNames) := by
  refine ⟨fun e he => ?_, fun usage? husage => ?_, fun c d => ⟨⟨rfl, rfl, rfl⟩,
    propertiesRecord_inj, dependenciesRecord_inj, tasksRecord_inj⟩⟩
  · rw [convertWith_of_invalid he]
  · have hids (id : String) : id ∈ p.options.keys ↔ p.has id = true := Dict.mem_keys_iff
    have hcount := CommandLine.optionCount_eq_length p.options.keys_nodup hids
    refine ⟨p.options.keys, p.options.keys_nodup, hids, fun e he => ?_, fun l hl => ?_⟩
    · rw [convertWith_of_logging_error husage he, ← hcount, announcements_eq]
      exact ⟨rfl, rfl⟩
    · refine ⟨applied p usage? l t, convertWith_of_ok husage hl, ?_⟩
      rw [records_convertWith husage hl, ← hcount, announcements_eq, List.cons_append]

/-- Of a command line that fails the checks nothing is logged, also if the logging options would
    fail too. A flag that is given twice is counted once and warned of once, before the logging
    options fail. Of two values for one key the record shows the one that is kept, and of an
    escape character in it the number. -/
theorem convertWith_records_refusing :
    (convertWith ⟨[], fun _ _ => .error (.conflictingOptions "q" "i")⟩
      (.build [.option "S", .option "s"]) {}).records = [] ∧
    (convertWith ⟨[], fun _ _ => .error (.conflictingOptions "q" "i")⟩
      (.build [.option "n", .option "t", .option "n"]) {}).records =
        [⟨.debug, "commons::converter", "converting 2 command-line options"⟩,
          ⟨.warn, "commons::converter",
            "the -t option is deprecated, run the 'tasks' task instead"⟩,
          ⟨.warn, "commons::converter",
            "the -n option is deprecated, run the 'dependencies' task instead"⟩] ∧
    (convertWith .standard (.build [.values "D" ["a=1", "a=\x1b"]]) {}).records =
        [⟨.debug, "commons::converter", "converting 1 command-line options"⟩,
          ⟨.trace, "commons::converter",
            "system properties: \x7b\"a\": \"\\u\x7b1b\x7d\"\x7d, project properties: \x7b\x7d"⟩,
          ⟨.trace, "commons::converter", "project dependencies: DefaultTasks"⟩,
          ⟨.trace, "commons::converter", "tasks: [], excluded: []"⟩] := by
  have hinvalid : validate (.build [.option "S", .option "s"])
      = .error (.conflictingOptions "S" "s") := rfl
  have hflags : validate (.build [.option "n", .option "t", .option "n"]) = .ok none := rfl
  have hvalues : validate (.build [.values "D" ["a=1", "a=\x1b"]]) = .ok none := rfl
  refine ⟨(convertWith_records _ _ {}).1 _ hinvalid, ?_, ?_⟩
  · obtain ⟨ids, hnodup, hids, hfails, -⟩ := (convertWith_records
      ⟨[], fun _ _ => .error (.conflictingOptions "q" "i")⟩ _ {}).2.1 _ hflags
    rw [(hfails _ rfl).2, ← CommandLine.optionCount_eq_length hnodup hids]
    decide +kernel
  · obtain ⟨ids, hnodup, hids, -, hsucceeds⟩ := (convertWith_records .standard _ {}).2.1 _ hvalues
    obtain ⟨c, hc, hrecords⟩ := hsucceeds _ rfl
    obtain rfl := Except.ok.inj hc
    rw [hrecords, ← CommandLine.optionCount_eq_length hnodup hids]
    decide +kernel

end Conversion
end LaunchConfig
