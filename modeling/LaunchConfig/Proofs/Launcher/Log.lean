import LaunchConfig.Proofs.Conversion.Records
import LaunchConfig.Proofs.Launcher.Output

/-!
# What a run logs

How far down the log goes is settled twice: from the command line alone, before anything is
converted, and by the conversion, which puts the command line on top of what the environment
gives. The environment says nothing about logging, so both come to the same.

`Launch.starts` and `Launch.warnings` say, without the conversion, which records are to be
seen. Records about details are left out here. A run whose working directory is unknown ends
before its command line is checked: the start is all that is seen of it.

Results:

* `level_loggingOf`: the level that the flags of a command line ask for;
* `loggingOf_of_result`: it is that of the configuration which is printed;
* `records_ofCommandLine`: what a command line has logged;
* `launch_log`: both of them for any run.
-/

namespace LaunchConfig

/-! ## The level -/

/-- Debugging counts before information, and that before quiet. -/
theorem Launch.level_loggingOf (p : CommandLine) :
    (loggingOf p).level =
      if p.has "d" then .debug else if p.has "i" then .info
      else if p.has "q" then .quiet else .lifecycle := by
  have hlevel : (loggingOf p).level = (LogLevel.mostVerbose?
      ((LoggingOption.levels.filter fun f => p.has f.1.id).map Prod.snd)).getD .lifecycle := rfl
  have hq : LoggingOption.quiet.id = "q" := rfl
  have hi : LoggingOption.info.id = "i" := rfl
  have hd : LoggingOption.debug.id = "d" := rfl
  rw [hlevel]
  simp only [LoggingOption.levels, List.filter_cons, List.filter_nil, hq, hi, hd]
  cases p.has "q" <;> cases p.has "i" <;> cases p.has "d" <;> rfl

/-- The directories that the environment gives leave the logging settings alone. -/
theorem Launch.loggingOf_of_result {p : CommandLine} {dir? home? : Option RawText}
    {c : Configuration}
    (h : (Conversion.convertWith .standard p (.ofDirs dir? home?)).result = .ok c) :
    loggingOf p = ⟨c.logLevel, c.colorOutput⟩ := by
  have hlevel : c.logLevel = (requestedLevel? p).getD .lifecycle :=
    Field.get_of_result_eq_ok h .logLevel
  have hcolor : c.colorOutput = (true && !p.has "no-color") :=
    Field.get_of_result_eq_ok h .colorOutput
  rw [hlevel, hcolor]
  rfl

/-! ## The records -/

namespace Launch

/-- The record of the start. -/
def starts (level : LogLevel) : List Record :=
  if level = .info ∨ level = .debug then
    [⟨.info, "build_launcher", "starting build-launcher 0.1.0"⟩]
  else []

/-- A warning for each deprecated flag that is present, unless the run is quiet. -/
def warnings (level : LogLevel) (p : CommandLine) : List Record :=
  if level = .quiet then [] else Conversion.deprecations p

/-- The run gets to the checks of its command line, and they pass. No command line is checked
    where the working directory is unknown. -/
def checksPass (p : CommandLine) : WorkingDirectory → Bool
  | .known _ => (Conversion.validate p).isOk
  | .unknown _ => false

/-! ## What is seen of them -/

/-- The records that are seen at a level, but for those about details. -/
def seen (level : LogLevel) (records : List Record) : List Record :=
  (Record.visible (leastSeverity level) records).filter fun r => r.severity ≠ .debug

theorem seen_cons (level : LogLevel) (r : Record) (records : List Record) :
    seen level (r :: records) = seen level [r] ++ seen level records := by
  rw [← List.singleton_append, seen, Record.visible, List.filter_append, List.filter_append]
  rfl

theorem seen_append (level : LogLevel) (records later : List Record) :
    seen level (records ++ later) = seen level records ++ seen level later := by
  rw [seen, Record.visible, List.filter_append, List.filter_append]
  rfl

theorem seen_startRecord (level : LogLevel) : seen level [startRecord] = starts level := by
  cases level <;> decide

theorem seen_eq_nil {level : LogLevel} {records : List Record}
    (h : ∀ r ∈ records, r.severity = .debug ∨ r.severity = .trace) : seen level records = [] := by
  rw [seen, Record.visible, List.filter_filter, List.filter_eq_nil_iff]
  intro r hr
  rcases h r hr with hdebug | htrace
  · simp [hdebug]
  · rw [htrace]
    cases level <;> decide

/-- Warnings are seen at every level but the quiet one. -/
theorem seen_deprecations (level : LogLevel) (p : CommandLine) :
    seen level (Conversion.deprecations p) = warnings level p := by
  have hwarn : ∀ r ∈ Conversion.deprecations p, r.severity = .warn := by
    intro r hr
    obtain ⟨f, -, rfl⟩ := List.mem_map.1 hr
    rfl
  rw [seen, Record.visible, List.filter_filter]
  by_cases hquiet : level = .quiet
  · subst hquiet
    rw [List.filter_eq_nil_iff.2 fun r hr => by rw [hwarn r hr]; decide]
    rfl
  · rw [warnings, if_neg hquiet, List.filter_eq_self.2 fun r hr => ?_]
    rw [hwarn r hr]
    cases level with
    | quiet => exact absurd rfl hquiet
    | debug | info | lifecycle => decide

theorem seen_convertWith (level : LogLevel) (p : CommandLine) (c : Configuration) :
    seen level (Conversion.convertWith .standard p c).records
      = if (Conversion.validate p).isOk then warnings level p else [] := by
  cases h : Conversion.validate p with
  | error e =>
    rw [Conversion.convertWith_of_invalid h]
    rfl
  | ok usage? =>
    have hdetails (c₁ c₂ c₃ : Configuration) :
        seen level [Conversion.propertiesRecord c₁, Conversion.dependenciesRecord c₂,
          Conversion.tasksRecord c₃] = [] := by
      refine seen_eq_nil fun r hr => .inr ?_
      simp only [List.mem_cons, List.not_mem_nil, or_false] at hr
      rcases hr with rfl | rfl | rfl <;> rfl
    have hcount : seen level [Conversion.countRecord p] = [] :=
      seen_eq_nil fun r hr => .inl (List.mem_singleton.1 hr ▸ rfl)
    simp only [Conversion.convertWith, h, LoggingSource.convert_standard]
    rw [seen_append, seen_cons, hcount, Conversion.aliasRecords_eq, seen_deprecations, hdetails,
      List.nil_append, List.append_nil]
    rfl

theorem seen_log (p : CommandLine) (records : List Record) :
    (log p records).filter (fun r => r.severity ≠ .debug)
      = starts (loggingOf p).level ++ seen (loggingOf p).level records := by
  rw [← seen_startRecord, ← seen_cons]
  rfl

theorem records_ofCommandLine (p : CommandLine) (seed : Configuration) :
    (ofCommandLine p seed).records = log p (Conversion.convertWith .standard p seed).records := by
  rw [ofCommandLine]
  cases (Conversion.convertWith .standard p seed).result with
  | error e => rfl
  | ok c =>
    dsimp only
    cases c.print? <;> rfl

end Launch

/-! ## A whole run -/

/-- **A run logs at the level that it prints, and says what happened.** The logging settings
    that are read off the command line before anything else are those of the configuration
    that it makes of any directories. At the level that they set, what is to be seen of a run
    besides details is the start, if information is shown, and then, if the command line is
    checked and passes, a warning for each deprecated flag that is present, unless the run is
    quiet. -/
theorem launch_log :
    (∀ (p : CommandLine) (dir? home? : Option RawText) (c : Configuration),
      (Conversion.convertWith .standard p (.ofDirs dir? home?)).result = .ok c →
        Launch.loggingOf p = ⟨c.logLevel, c.colorOutput⟩) ∧
    (∀ p : CommandLine, (Launch.loggingOf p).level =
      if p.has "d" then .debug else if p.has "i" then .info
      else if p.has "q" then .quiet else .lifecycle) ∧
    ∀ (args : List (List UInt8)) (dir : WorkingDirectory) (vars : String → Option (List UInt8))
      (p : CommandLine), Launch.grammar.parse (args.map .ofBytes) = .ok p →
        (launch (args.map .ofBytes) dir (.ofBytes vars)).records.filter
            (fun r => r.severity ≠ .debug)
          = Launch.starts (Launch.loggingOf p).level
            ++ if Launch.checksPass p dir then Launch.warnings (Launch.loggingOf p).level p
              else [] := by
  refine ⟨fun p dir? home? c h => Launch.loggingOf_of_result h, Launch.level_loggingOf,
    fun args dir vars p hp => ?_⟩
  cases dir with
  | unknown cause =>
    rw [launch_of_unknown hp]
    exact Launch.seen_log p []
  | known cwd =>
    rw [launch_of_parse hp, Launch.records_ofCommandLine, Launch.seen_log,
      Launch.seen_convertWith]
    rfl

/-- At the level of debugging `-tn` is warned of in the order of the options, but where `-S`
    and `-s` exclude each other only the start is seen, and where the working directory has been
    removed, too. -/
theorem launch_log_debug :
    (∃ c, (Conversion.convertWith .standard (.build [.option "d", .option "n"])
        (.ofDirs (some (.ofString "/w")) none)).result = .ok c ∧
      Launch.loggingOf (.build [.option "d", .option "n"]) = ⟨c.logLevel, c.colorOutput⟩) ∧
    (launch ((["-dn", "--tasks"].map (·.toUTF8.data.toList)).map .ofBytes)
        (.known (.ofString "/")) (.ofBytes fun _ => none)).records.filter
          (fun r => r.severity ≠ .debug)
      = [⟨.info, "build_launcher", "starting build-launcher 0.1.0"⟩,
        ⟨.warn, "commons::converter", "the -t option is deprecated, run the 'tasks' task instead"⟩,
        ⟨.warn, "commons::converter",
          "the -n option is deprecated, run the 'dependencies' task instead"⟩] ∧
    (launch ((["-itSs"].map (·.toUTF8.data.toList)).map .ofBytes)
        (.known (.ofString "/")) (.ofBytes fun _ => none)).records.filter
          (fun r => r.severity ≠ .debug)
      = [⟨.info, "build_launcher", "starting build-launcher 0.1.0"⟩] ∧
    (launch ((["-dn", "--tasks"].map (·.toUTF8.data.toList)).map .ofBytes)
        (.unknown "No such file or directory") (.ofBytes fun _ => none)).records.filter
          (fun r => r.severity ≠ .debug)
      = [⟨.info, "build_launcher", "starting build-launcher 0.1.0"⟩] := by
  obtain ⟨hsettings, -, hrecords⟩ := launch_log
  have hflags : Launch.grammar.parse
      ((["-dn", "--tasks"].map (·.toUTF8.data.toList)).map .ofBytes)
      = .ok (.build [.option "d", .option "n", .option "t", .extra ["dependencies", "tasks"]]) := by
    decide +kernel
  have hexcluded : Launch.grammar.parse ((["-itSs"].map (·.toUTF8.data.toList)).map .ofBytes)
      = .ok (.build [.option "i", .option "t", .option "S", .option "s", .extra ["tasks"]]) := by
    decide +kernel
  refine ⟨⟨_, rfl, hsettings _ (some (.ofString "/w")) none _ rfl⟩, ?_, ?_, ?_⟩
  · rw [hrecords _ _ _ _ hflags]
    decide +kernel
  · rw [hrecords _ _ _ _ hexcluded]
    decide +kernel
  · rw [hrecords _ _ _ _ hflags]
    decide +kernel

end LaunchConfig
