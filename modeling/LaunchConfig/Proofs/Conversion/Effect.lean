import LaunchConfig.Conversion.Build

/-!
# What a conversion does to each field

A conversion goes through several stages, and the embedded script undoes part of what
a stage before it has done. `Field.effect` says for each field what is left of that in
the end, from the command line and the old value of the field alone.

Results:

* `applied_eq`: the configuration that the stages come to, in one go;
* `result_eq_ok_iff`: when a conversion succeeds, and with what;
* `Field.get_of_result_eq_ok`: each field is the effect on its old value.
-/

namespace LaunchConfig

namespace Conversion

variable {source : LoggingSource} {p : CommandLine} {c c' : Configuration}

/-! ## All stages -/

/-- The stages in one go. With an embedded script no file is left, whichever the
    command line names, and no parent directory is searched. -/
theorem applied_eq (p : CommandLine) (usage? : Option CacheUsage) (l : LoggingSettings)
    (c : Configuration) :
    applied p usage? l c =
      { logLevel := l.level
        colorOutput := l.color
        systemProperties :=
          putProperties c.systemProperties (p.values BuildOption.systemProperty.id)
        projectProperties :=
          putProperties c.projectProperties (p.values BuildOption.projectProperty.id)
        searchUpwards :=
          if (p.value? BuildOption.embeddedScript.id).isSome then false
          else c.searchUpwards && !p.has BuildOption.noSearchUpward.id
        projectDir := pathOr p BuildOption.projectDir c.projectDir
        userHomeDir := pathOr p BuildOption.userHome c.userHomeDir
        buildFile :=
          if (p.value? BuildOption.embeddedScript.id).isSome then none
          else pathOr p BuildOption.buildFile c.buildFile
        settingsFile :=
          if (p.value? BuildOption.embeddedScript.id).isSome then none
          else pathOr p BuildOption.settingsFile c.settingsFile
        initScripts := c.initScripts ++ (p.values BuildOption.initScript.id).map .ofString
        cacheUsage := usage?.getD c.cacheUsage
        embeddedScript := (p.value? BuildOption.embeddedScript.id).or c.embeddedScript
        showStacktrace := (requestedStacktrace? p).getD c.showStacktrace
        projectDependencies :=
          if p.has BuildOption.noRebuild.id then .skip
          else if p.has BuildOption.dependencyTask.id then
            .tasks (p.values BuildOption.dependencyTask.id)
          else c.projectDependencies
        taskNames := if p.extra.isEmpty then c.taskNames else p.extra
        excludedTaskNames :=
          if p.has BuildOption.excludeTask.id then p.values BuildOption.excludeTask.id
          else c.excludedTaskNames
        dryRun := c.dryRun || p.has BuildOption.dryRun.id
        noOpt := c.noOpt || p.has BuildOption.noOpt.id
        profile := c.profile || p.has BuildOption.profile.id } := by
  rw [applied, withDependencies, applyEmbedded]
  cases p.value? BuildOption.embeddedScript.id with
  | none => rfl
  | some script => rfl

/-- A conversion succeeds exactly if the checks and the logging options do. -/
theorem result_eq_ok_iff :
    (convertWith source p c).result = .ok c' ↔
      ∃ usage? l, validate p = .ok usage? ∧ source.convert p c.logging = .ok l ∧
        c' = applied p usage? l c := by
  cases hv : validate p with
  | error e => simp [convertWith_of_invalid hv]
  | ok usage? =>
    cases hl : source.convert p c.logging with
    | error e => simp [convertWith_of_logging_error hv hl]
    | ok l =>
      rw [convertWith_of_ok hv hl, Except.ok.injEq, eq_comm]
      simp

theorem usage_of_validate {usage? : Option CacheUsage} (h : validate p = .ok usage?) :
    usage? = (p.value? BuildOption.cache.id).bind CacheUsage.ofText? := by
  have hcache : requestedCache p = .ok usage? := by
    unfold validate at h
    cases hr : requestedCache p with
    | error e => simp [hr] at h
    | ok u? =>
      rw [hr] at h
      cases hc : conflict? p with
      | some e => simp [hc] at h
      | none => simpa [hc] using h
  unfold requestedCache at hcache
  cases hv : p.value? BuildOption.cache.id with
  | none => simpa [hv, eq_comm] using hcache
  | some text =>
    rw [hv] at hcache
    cases hu : CacheUsage.ofText? text with
    | none => simp [hu] at hcache
    | some u => simpa [hu, eq_comm] using hcache

theorem pathOr_eq (p : CommandLine) (o : OptionSpec) (old : Option RawText) :
    pathOr p o old = ((p.value? o.id).map .ofString).or old := by
  unfold pathOr
  cases p.value? o.id <;> rfl

theorem requestedStacktrace?_getD (p : CommandLine) (old : StacktraceLevel) :
    (requestedStacktrace? p).getD old
      = if p.has "S" then .alwaysFull else if p.has "s" then .always else old := by
  have hS : StacktraceLevel.fullFlag.toString = "S" := by decide
  have hs : StacktraceLevel.flag.toString = "s" := by decide
  unfold requestedStacktrace?
  simp only [StacktraceLevel.flags, List.find?_cons, List.find?_nil, hS, hs]
  cases p.has "S" <;> cases p.has "s" <;> rfl

end Conversion

/-! ## Fields -/

/-- A field of a configuration. -/
inductive Field where
  | logLevel
  | colorOutput
  | systemProperties
  | projectProperties
  | searchUpwards
  | projectDir
  | userHomeDir
  | buildFile
  | settingsFile
  | initScripts
  | cacheUsage
  | embeddedScript
  | showStacktrace
  | projectDependencies
  | taskNames
  | excludedTaskNames
  | dryRun
  | noOpt
  | profile
  deriving DecidableEq, Repr

namespace Field

/-- What the field holds. -/
abbrev Value : Field → Type
  | logLevel => LogLevel
  | colorOutput | searchUpwards | dryRun | noOpt | profile => Bool
  | systemProperties | projectProperties => Dict String
  | projectDir | userHomeDir | buildFile | settingsFile => Option RawText
  | initScripts => List RawText
  | cacheUsage => CacheUsage
  | embeddedScript => Option String
  | showStacktrace => StacktraceLevel
  | projectDependencies => ProjectDependencies
  | taskNames | excludedTaskNames => List String

/-- The field of a configuration. -/
def get : (f : Field) → Configuration → f.Value
  | logLevel, c => c.logLevel
  | colorOutput, c => c.colorOutput
  | systemProperties, c => c.systemProperties
  | projectProperties, c => c.projectProperties
  | searchUpwards, c => c.searchUpwards
  | projectDir, c => c.projectDir
  | userHomeDir, c => c.userHomeDir
  | buildFile, c => c.buildFile
  | settingsFile, c => c.settingsFile
  | initScripts, c => c.initScripts
  | cacheUsage, c => c.cacheUsage
  | embeddedScript, c => c.embeddedScript
  | showStacktrace, c => c.showStacktrace
  | projectDependencies, c => c.projectDependencies
  | taskNames, c => c.taskNames
  | excludedTaskNames, c => c.excludedTaskNames
  | dryRun, c => c.dryRun
  | noOpt, c => c.noOpt
  | profile, c => c.profile

theorem ext {c d : Configuration} (h : ∀ f : Field, f.get c = f.get d) : c = d :=
  Configuration.ext (h logLevel) (h colorOutput) (h systemProperties) (h projectProperties)
    (h searchUpwards) (h projectDir) (h userHomeDir) (h buildFile) (h settingsFile)
    (h initScripts) (h cacheUsage) (h embeddedScript) (h showStacktrace) (h projectDependencies)
    (h taskNames) (h excludedTaskNames) (h dryRun) (h noOpt) (h profile)

/-- What a command line makes of the old value of the field. -/
def effect (p : CommandLine) : (f : Field) → f.Value → f.Value
  | logLevel, old => (requestedLevel? p).getD old
  | colorOutput, old => old && !p.has "no-color"
  | systemProperties, old => putProperties old (p.values "D")
  | projectProperties, old => putProperties old (p.values "P")
  | searchUpwards, old => if (p.value? "e").isSome then false else old && !p.has "u"
  | projectDir, old => ((p.value? "p").map .ofString).or old
  | userHomeDir, old => ((p.value? "g").map .ofString).or old
  | buildFile, old =>
    if (p.value? "e").isSome then none else ((p.value? "b").map .ofString).or old
  | settingsFile, old =>
    if (p.value? "e").isSome then none else ((p.value? "c").map .ofString).or old
  | initScripts, old => old ++ (p.values "I").map .ofString
  | cacheUsage, old => ((p.value? "C").bind CacheUsage.ofText?).getD old
  | embeddedScript, old => (p.value? "e").or old
  | showStacktrace, old =>
    if p.has "S" then .alwaysFull else if p.has "s" then .always else old
  | projectDependencies, old =>
    if p.has "a" then .skip else if p.has "A" then .tasks (p.values "A") else old
  | taskNames, old => if p.extra.isEmpty then old else p.extra
  | excludedTaskNames, old => if p.has "x" then p.values "x" else old
  | dryRun, old => old || p.has "m"
  | noOpt, old => old || p.has "no-opt"
  | profile, old => old || p.has "profile"

/-- After a conversion each field is what the command line makes of its old value. -/
theorem get_of_result_eq_ok {p : CommandLine} {c c' : Configuration}
    (h : (Conversion.convertWith .standard p c).result = .ok c') (f : Field) :
    f.get c' = f.effect p (f.get c) := by
  obtain ⟨usage?, l, hv, hl, rfl⟩ := Conversion.result_eq_ok_iff.1 h
  obtain rfl := Conversion.usage_of_validate hv
  obtain rfl : LoggingSource.applyStandard p c.logging = l := Except.ok.inj hl
  rw [Conversion.applied_eq]
  cases f with
  | projectDir | userHomeDir => exact Conversion.pathOr_eq ..
  | buildFile | settingsFile => exact congrArg (ite _ _) (Conversion.pathOr_eq ..)
  | showStacktrace => exact Conversion.requestedStacktrace?_getD ..
  | _ => rfl

end Field
end LaunchConfig
