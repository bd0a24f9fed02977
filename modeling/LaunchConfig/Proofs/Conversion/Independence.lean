import LaunchConfig.Proofs.Conversion.Written

/-!
# What a field depends on

Each field of a configuration has options of its own, and the tasks have the extra
arguments. Whatever else is on a command line, or in the configuration that it is
applied to, does not reach the field; and if nothing of its own is there, the field
stays as it was.

Results:

* `Field.effect_congr`, `Field.effect_of_silent`: what a command line makes of a field;
* `Conversion.get_eq_of_agree`: no field depends on what is not its own.
-/

namespace LaunchConfig
namespace Field

variable {f : Field} {p q : CommandLine}

/-- The options of the field. -/
def ids : Field → List String
  | logLevel => ["q", "i", "d"]
  | colorOutput => ["no-color"]
  | systemProperties => ["D"]
  | projectProperties => ["P"]
  | searchUpwards => ["u", "e"]
  | projectDir => ["p"]
  | userHomeDir => ["g"]
  | buildFile => ["b", "e"]
  | settingsFile => ["c", "e"]
  | initScripts => ["I"]
  | cacheUsage => ["C"]
  | embeddedScript => ["e"]
  | showStacktrace => ["S", "s"]
  | projectDependencies => ["A", "a"]
  | taskNames => []
  | excludedTaskNames => ["x"]
  | dryRun => ["m"]
  | noOpt => ["no-opt"]
  | profile => ["profile"]

/-- The command lines say the same about the field. -/
structure Agree (f : Field) (p q : CommandLine) : Prop where
  has (id : String) : id ∈ f.ids → p.has id = q.has id
  values (id : String) : id ∈ f.ids → p.values id = q.values id
  extra : f = .taskNames → p.extra = q.extra

/-- The command line says nothing about the field. -/
structure Silent (f : Field) (p : CommandLine) : Prop where
  has (id : String) : id ∈ f.ids → p.has id = false
  extra : f = .taskNames → p.extra = []

theorem Agree.value? (h : f.Agree p q) (id : String) (hid : id ∈ f.ids) :
    p.value? id = q.value? id := by
  rw [CommandLine.value?, h.values id hid, CommandLine.value?]

theorem Silent.values (h : f.Silent p) (id : String) (hid : id ∈ f.ids) : p.values id = [] :=
  CommandLine.values_of_not_has (h.has id hid)

/-! ## The effect on a field -/

theorem requestedLevel?_congr (h : ∀ id ∈ ["q", "i", "d"], p.has id = q.has id) :
    requestedLevel? p = requestedLevel? q := by
  have hfilter : LoggingOption.levels.filter (fun f => p.has f.1.id)
      = LoggingOption.levels.filter fun f => q.has f.1.id := by
    refine List.filter_congr fun f hf => ?_
    rw [h]
    revert f
    decide
  rw [requestedLevel?, hfilter, requestedLevel?]

/-- Command lines that say the same about a field make the same of it. -/
theorem effect_congr (h : f.Agree p q) : f.effect p = f.effect q := by
  funext old
  cases f with
  | logLevel => exact congrArg (Option.getD · old) (requestedLevel?_congr h.has)
  | taskNames => simp only [effect, h.extra rfl]
  | colorOutput | dryRun | noOpt | profile => simp only [effect, h.has _ List.mem_cons_self]
  | systemProperties | projectProperties | initScripts =>
    simp only [effect, h.values _ List.mem_cons_self]
  | projectDir | userHomeDir | cacheUsage | embeddedScript =>
    simp only [effect, h.value? _ List.mem_cons_self]
  | searchUpwards =>
    simp only [effect, h.has "u" (by decide), h.value? "e" (by decide)]
  | buildFile =>
    simp only [effect, h.value? "b" (by decide), h.value? "e" (by decide)]
  | settingsFile =>
    simp only [effect, h.value? "c" (by decide), h.value? "e" (by decide)]
  | showStacktrace =>
    simp only [effect, h.has "S" (by decide), h.has "s" (by decide)]
  | projectDependencies =>
    simp only [effect, h.has "A" (by decide), h.has "a" (by decide), h.values "A" (by decide)]
  | excludedTaskNames =>
    simp only [effect, h.has _ List.mem_cons_self, h.values _ List.mem_cons_self]

theorem mem_ids_of_mem_flags {id : String} (h : id ∈ f.flags) : id ∈ f.ids := by
  revert id
  cases f <;> decide

theorem mem_ids_of_mem_valued {id : String} (h : id ∈ f.valued) : id ∈ f.ids := by
  revert id
  cases f <;> decide

theorem Silent.not_written (h : f.Silent p) : ¬ f.Written p := by
  intro hwritten
  cases hwritten with
  | flag hid hhas => cases (h.has _ (mem_ids_of_mem_flags hid)).symm.trans hhas
  | value hid hvalues => exact hvalues (h.values _ (mem_ids_of_mem_valued hid))
  | tasks hf hextra => exact hextra (h.extra hf)

/-- A command line that says nothing about a field leaves it as it was. -/
theorem effect_of_silent (h : f.Silent p) (old : f.Value) : f.effect p old = old :=
  effect_of_not_written h.not_written old

theorem mem_ids {id : String} (h : id ∈ f.ids) :
    id ∈ (buildOptions .standard).map (·.id) ∧ id ∉ BuildOption.aliases.map (·.id) := by
  revert id
  cases f <;> decide +kernel

end Field

namespace Conversion

variable {p q : CommandLine}

/-! ## Conversions -/

/-- The checks look at the options of the fields, and at the last value of one of them. -/
theorem validate_congr (hhas : ∀ f : Field, ∀ id ∈ f.ids, p.has id = q.has id)
    (hvalue : p.value? BuildOption.cache.id = q.value? BuildOption.cache.id) :
    validate p = validate q := by
  have hcache : requestedCache p = requestedCache q := by
    rw [requestedCache, hvalue, requestedCache]
  have hconflict : conflict? p = conflict? q := by
    simp only [conflict?, BuildOption.exclusions, List.findSome?_cons, List.findSome?_nil,
      List.find?_cons, List.find?_nil,
      hhas .embeddedScript BuildOption.embeddedScript.id (by decide),
      hhas .buildFile BuildOption.buildFile.id (by decide),
      hhas .settingsFile BuildOption.settingsFile.id (by decide),
      hhas .searchUpwards BuildOption.noSearchUpward.id (by decide),
      hhas .showStacktrace BuildOption.fullStacktrace.id (by decide),
      hhas .showStacktrace BuildOption.stacktrace.id (by decide),
      hhas .projectDependencies BuildOption.dependencyTask.id (by decide),
      hhas .projectDependencies BuildOption.noRebuild.id (by decide)]
  rw [validate, hcache, hconflict, validate]

/-- Command lines that say the same about every field convert alike. -/
theorem result_congr (h : ∀ f : Field, f.Agree p q) (t : Configuration) :
    (convertWith .standard p t).result = (convertWith .standard q t).result := by
  have hvalidate : validate p = validate q :=
    validate_congr (fun f => (h f).has) ((h .cacheUsage).value? _ List.mem_cons_self)
  cases hp : validate p with
  | error e =>
    have hq : validate q = .error e := hvalidate.symm.trans hp
    rw [convertWith_of_invalid hp, convertWith_of_invalid hq]
  | ok usage? =>
    have hq : validate q = .ok usage? := hvalidate.symm.trans hp
    have hp := convertWith_of_ok hp (LoggingSource.convert_standard p t.logging)
    have hq := convertWith_of_ok hq (LoggingSource.convert_standard q t.logging)
    rw [hp, hq]
    refine congrArg Except.ok (Field.ext fun f => ?_)
    rw [Field.get_of_result_eq_ok hp, Field.get_of_result_eq_ok hq, Field.effect_congr (h f)]

/-- **Each field depends only on its own options and its own old value.** Two conversions
    that succeed agree on a field if their command lines say the same about it and it was
    the same before. A conversion that says nothing about a field leaves it alone. And
    nothing of the command line counts but the extra arguments and the options of a build
    without the deprecated flags. -/
theorem get_eq_of_agree :
    (∀ (f : Field) (p q : CommandLine) (t u c d : Configuration),
      (convertWith .standard p t).result = .ok c → (convertWith .standard q u).result = .ok d →
        f.Agree p q → f.get t = f.get u → f.get c = f.get d) ∧
    (∀ (f : Field) (p : CommandLine) (t c : Configuration),
      (convertWith .standard p t).result = .ok c → f.Silent p → f.get c = f.get t) ∧
    ∀ (p q : CommandLine) (t : Configuration),
      (∀ id ∈ (buildOptions .standard).map (·.id), id ∉ BuildOption.aliases.map (·.id) →
        p.has id = q.has id ∧ p.values id = q.values id) →
      p.extra = q.extra →
        (convertWith .standard p t).result = (convertWith .standard q t).result := by
  refine ⟨fun f p q t u c d hc hd hagree hold => ?_, fun f p t c hc hsilent => ?_,
    fun p q t hids hextra => result_congr (fun f => ⟨?_, ?_, fun _ => hextra⟩) t⟩
  · rw [Field.get_of_result_eq_ok hc, Field.get_of_result_eq_ok hd, Field.effect_congr hagree, hold]
  · rw [Field.get_of_result_eq_ok hc, Field.effect_of_silent hsilent]
  · intro id hid
    obtain ⟨hknown, halias⟩ := Field.mem_ids hid
    exact (hids id hknown halias).1
  · intro id hid
    obtain ⟨hknown, halias⟩ := Field.mem_ids hid
    exact (hids id hknown halias).2

/-- With the same embedded script there is no build file, whatever else is asked for; a
    flag for the log leaves a dry run alone; and a deprecated flag has no effect. -/
theorem get_eq_of_agree_embedded :
    (∃ c d,
      (convertWith .standard ((CommandLine.empty.withValues "e" ["task a"]).withOption "q")
        { buildFile := some (.ofString "a.gradle") }).result = .ok c ∧
      (convertWith .standard ((CommandLine.empty.withValues "e" ["task a"]).withValues "x" ["b"])
        { buildFile := some (.ofString "a.gradle"), dryRun := true }).result = .ok d ∧
      Field.buildFile.get c = Field.buildFile.get d) ∧
    (∃ c, (convertWith .standard (CommandLine.empty.withOption "q") { dryRun := true }).result
        = .ok c ∧ Field.dryRun.get c = true) ∧
    (convertWith .standard ((CommandLine.empty.withOption "S").withOption "t") {}).result
      = (convertWith .standard (CommandLine.empty.withOption "S") {}).result := by
  have hagree : Field.buildFile.Agree ((CommandLine.empty.withValues "e" ["task a"]).withOption "q")
      ((CommandLine.empty.withValues "e" ["task a"]).withValues "x" ["b"]) :=
    ⟨by decide, by decide, nofun⟩
  have hsilent : Field.dryRun.Silent (CommandLine.empty.withOption "q") := ⟨by decide, nofun⟩
  refine ⟨⟨_, _, rfl, rfl, ?_⟩, ⟨_, rfl, ?_⟩, ?_⟩
  · exact get_eq_of_agree.1 .buildFile _ _ { buildFile := some (.ofString "a.gradle") }
      { buildFile := some (.ofString "a.gradle"), dryRun := true } _ _ rfl rfl hagree rfl
  · exact get_eq_of_agree.2.1 .dryRun _ { dryRun := true } _ rfl hsilent
  · exact get_eq_of_agree.2.2 _ _ _ (by decide +kernel) rfl

end Conversion
end LaunchConfig
