import LaunchConfig.Proofs.Conversion.Effect

/-!
# Logging options of any kind

What the logging options are and do is left to a `LoggingSource`. Whatever that is, it
gets no say before the checks are passed, it is asked once, about the logging settings
only, and what it answers reaches nothing but the logging settings.

Results:

* `applied_eq_withLogging`: the logging settings are put into a configuration that does
  not depend on them;
* `result_of_source`: what a conversion comes to with any logging options.
-/

namespace LaunchConfig

theorem Field.get_withLogging {f : Field} (hlevel : f ≠ .logLevel) (hcolor : f ≠ .colorOutput)
    (c : Configuration) (l : LoggingSettings) : f.get (c.withLogging l) = f.get c := by
  cases f with
  | logLevel => exact absurd rfl hlevel
  | colorOutput => exact absurd rfl hcolor
  | _ => rfl

namespace Conversion

theorem applied_eq_withLogging (p : CommandLine) (usage? : Option CacheUsage)
    (l l' : LoggingSettings) (t : Configuration) :
    applied p usage? l t = (applied p usage? l' t).withLogging l := by
  rw [applied_eq, applied_eq]
  rfl

theorem logging_applied (p : CommandLine) (usage? : Option CacheUsage) (l : LoggingSettings)
    (t : Configuration) : (applied p usage? l t).logging = l := by
  rw [applied_eq_withLogging p usage? l l, Configuration.logging_withLogging]

/-- Outside the logging settings it makes no difference what the logging options ask for. -/
theorem get_applied_eq {f : Field} (hlevel : f ≠ .logLevel) (hcolor : f ≠ .colorOutput)
    (p : CommandLine) (usage? : Option CacheUsage) (l l' : LoggingSettings) (t : Configuration) :
    f.get (applied p usage? l t) = f.get (applied p usage? l' t) := by
  rw [applied_eq_withLogging p usage? l l', Field.get_withLogging hlevel hcolor]

/-- **Logging options are isolated.** If the checks fail, so does the conversion, with the
    same error for all logging options. Else the logging options are asked about the
    logging settings that there are. If they fail, so does the conversion, with their
    error. If not, it succeeds; the logging settings are what they answered, and all
    other fields are as with any other logging options that do not fail. -/
theorem result_of_source (p : CommandLine) (t : Configuration) :
    (∀ e, validate p = .error e →
      ∀ source : LoggingSource, (convertWith source p t).result = .error e) ∧
    ∀ usage?, validate p = .ok usage? → ∀ source : LoggingSource,
      (∀ e, source.convert p ⟨t.logLevel, t.colorOutput⟩ = .error e →
        (convertWith source p t).result = .error e) ∧
      ∀ l, source.convert p ⟨t.logLevel, t.colorOutput⟩ = .ok l →
        ∃ c, (convertWith source p t).result = .ok c ∧
          c.logLevel = l.level ∧ c.colorOutput = l.color ∧
          ∀ (other : LoggingSource) (l' : LoggingSettings),
            other.convert p ⟨t.logLevel, t.colorOutput⟩ = .ok l' →
              ∃ d, (convertWith other p t).result = .ok d ∧
                ∀ f : Field, f ≠ .logLevel → f ≠ .colorOutput → f.get c = f.get d := by
  refine ⟨fun e he source => ?_, fun usage? husage source => ⟨fun e he => ?_, fun l hl => ?_⟩⟩
  · rw [convertWith_of_invalid he]
  · rw [convertWith_of_logging_error husage he]
  · have hlogging : (applied p usage? l t).logging = l := logging_applied p usage? l t
    refine ⟨applied p usage? l t, convertWith_of_ok husage hl,
      congrArg LoggingSettings.level hlogging, congrArg LoggingSettings.color hlogging,
      fun other l' hl' => ?_⟩
    refine ⟨applied p usage? l' t, convertWith_of_ok husage hl', fun f hlevel hcolor => ?_⟩
    exact get_applied_eq hlevel hcolor p usage? l l' t

/-- Logging options that always fail count only if the checks are passed; ones that set a
    level of their own do so beside a flag for another level, and leave a dry run alone. -/
theorem result_of_source_refusing :
    (convertWith ⟨[], fun _ _ => .error (.conflictingOptions "q" "i")⟩
      (.build [.option "S", .option "s"]) {}).result = .error (.conflictingOptions "S" "s") ∧
    (convertWith ⟨[], fun _ _ => .error (.conflictingOptions "q" "i")⟩
      (.build [.option "m", .option "q"]) {}).result = .error (.conflictingOptions "q" "i") ∧
    ∃ c d,
      (convertWith ⟨[], fun _ l => .ok { l with level := .debug }⟩
        (.build [.option "m", .option "q"]) {}).result = .ok c ∧ c.logLevel = .debug ∧
      (convertWith .standard (.build [.option "m", .option "q"]) {}).result = .ok d ∧
      Field.dryRun.get c = Field.dryRun.get d := by
  have hinvalid : validate (.build [.option "S", .option "s"])
      = .error (.conflictingOptions "S" "s") := rfl
  have hvalid : validate (.build [.option "m", .option "q"]) = .ok none := rfl
  refine ⟨(result_of_source _ {}).1 _ hinvalid _,
    ((result_of_source _ {}).2 _ hvalid _).1 _ rfl, ?_⟩
  obtain ⟨c, hc, hlevel, -, hother⟩ := ((result_of_source _ {}).2 _ hvalid
    ⟨[], fun _ l => .ok { l with level := .debug }⟩).2 _ rfl
  obtain ⟨d, hd, hfields⟩ := hother .standard _ rfl
  exact ⟨c, d, hc, hlevel, hd, hfields .dryRun nofun nofun⟩

end Conversion
end LaunchConfig
