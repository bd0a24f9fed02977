import LaunchConfig.Proofs.Arguments.Building
import LaunchConfig.Proofs.Conversion.Effect
import LaunchConfig.Proofs.Conversion.Failure

/-!
# Two command lines in turn

A configuration may be made in layers: one command line is applied, and then another on
top of what came out. For most fields this is the same as one command line that says all
that the two say, the first before the second. It is not for fields in which the layer on
top replaces what one command line would collect (project dependencies, tasks, excluded
tasks) or in which one command line weighs its own options (the log level).

Results:

* `Rule.Broken.append`: what the second layer breaks, both in one command line break;
* `Field.effect_append`: the two effects on a field are one, if both in one command line
  break no rule;
* `Conversion.get_layered`: what the layers come to, field by field.
-/

namespace LaunchConfig

variable {p q : CommandLine}

/-! ## Rules -/

namespace Rule

theorem has_of_value? {id v : String} (h : p.value? id = some v) : p.has id = true := by
  cases hid : p.has id with
  | true => rfl
  | false =>
    rw [CommandLine.value?, CommandLine.values_of_not_has hid] at h
    cases h

/-- More options before those of a command line do not mend what it breaks. -/
theorem Broken.append (p : CommandLine) {r : Rule} {e : ConversionError} (h : r.Broken q e) :
    ∃ e', r.Broken (p ++ q) e' := by
  have hboth {id : String} (hid : q.has id = true) : (p ++ q).has id = true := by
    rw [CommandLine.has_append, hid, Bool.or_true]
  cases h with
  | @cacheUsage text hlast hon hrebuild =>
    have hlast' : ((p ++ q).values "C").getLast? = some text := by
      rw [CommandLine.values_append, List.getLast?_append, hlast]
      rfl
    exact ⟨_, .cacheUsage hlast' hon hrebuild⟩
  | @embeddedScript x he hx =>
    have hfound : (["b", "c", "u"].find? (p ++ q).has).isSome = true :=
      List.find?_isSome.2 ⟨x, List.mem_of_find?_eq_some hx, hboth (List.find?_some hx)⟩
    obtain ⟨y, hy⟩ := Option.isSome_iff_exists.1 hfound
    exact ⟨_, .embeddedScript (hboth he) hy⟩
  | stacktrace hS hs => exact ⟨_, .stacktrace (hboth hS) (hboth hs)⟩
  | dependencies hA ha => exact ⟨_, .dependencies (hboth hA) (hboth ha)⟩

section Obeyed

variable (hp : ∀ r : Rule, ∀ e, ¬ r.Broken p e)

include hp

theorem has_eq_false_of_embedded (he : p.has "e" = true) {x : String} (hx : x ∈ ["b", "c", "u"]) :
    p.has x = false := by
  cases hfind : ["b", "c", "u"].find? p.has with
  | some y => exact absurd (.embeddedScript he hfind) (hp _ _)
  | none => simpa using List.find?_eq_none.1 hfind x hx

theorem has_eq_false_of_full (hS : p.has "S" = true) : p.has "s" = false := by
  cases hs : p.has "s" with
  | false => rfl
  | true => exact absurd (.stacktrace hS hs) (hp _ _)

theorem exists_ofText? {text : String} (h : p.value? "C" = some text) :
    ∃ u, CacheUsage.ofText? text = some u := by
  cases hu : CacheUsage.ofText? text with
  | some u => exact ⟨u, rfl⟩
  | none =>
    obtain ⟨hon, hrebuild⟩ := ofText?_eq_none_iff.1 hu
    exact absurd (.cacheUsage h hon hrebuild) (hp _ _)

end Obeyed
end Rule

/-! ## Fields -/

namespace Field

/-- The fields for which two layers are as good as one command line. -/
def accumulating : List Field :=
  [systemProperties, projectProperties, searchUpwards, projectDir, userHomeDir, buildFile,
    settingsFile, initScripts, cacheUsage, embeddedScript, showStacktrace, colorOutput, dryRun,
    noOpt, profile]

variable (hpq : ∀ r : Rule, ∀ e, ¬ r.Broken (p ++ q) e)

include hpq

/-- A script that the first layer embeds is not followed by a file in the second. -/
theorem value?_eq_none_of_embedded {v x : String} (he : p.value? "e" = some v)
    (hx : x ∈ ["b", "c", "u"]) : q.value? x = none := by
  have hboth : (p ++ q).has "e" = true := by
    rw [CommandLine.has_append, Rule.has_of_value? he, Bool.true_or]
  have hnone := Rule.has_eq_false_of_embedded hpq hboth hx
  rw [CommandLine.has_append, Bool.or_eq_false_iff] at hnone
  cases hq : q.value? x with
  | none => rfl
  | some w => cases hnone.2.symm.trans (Rule.has_of_value? hq)

theorem path_append (old : Option RawText) {x : String} (hx : x ∈ ["b", "c", "u"]) :
    (if ((p ++ q).value? "e").isSome then none
      else (((p ++ q).value? x).map RawText.ofString).or old)
    = if (q.value? "e").isSome then none
      else ((q.value? x).map RawText.ofString).or
        (if (p.value? "e").isSome then none else ((p.value? x).map RawText.ofString).or old) := by
  rw [CommandLine.value?_append, CommandLine.value?_append]
  cases hq : q.value? "e" with
  | some w => rfl
  | none =>
    cases hp : p.value? "e" with
    | some v =>
      rw [value?_eq_none_of_embedded hpq hp hx]
      rfl
    | none =>
      cases q.value? x <;> rfl

theorem cacheUsage_append (old : CacheUsage) :
    (((p ++ q).value? "C").bind CacheUsage.ofText?).getD old
      = ((q.value? "C").bind CacheUsage.ofText?).getD
          (((p.value? "C").bind CacheUsage.ofText?).getD old) := by
  rw [CommandLine.value?_append]
  cases hq : q.value? "C" with
  | none => rfl
  | some text =>
    have hlast : (p ++ q).value? "C" = some text := by
      rw [CommandLine.value?_append, hq]
      rfl
    obtain ⟨u, hu⟩ := Rule.exists_ofText? hpq hlast
    rw [Option.some_or, Option.bind_some, hu]
    rfl

theorem showStacktrace_append (old : StacktraceLevel) :
    (if (p ++ q).has "S" then StacktraceLevel.alwaysFull
      else if (p ++ q).has "s" then .always else old)
    = if q.has "S" then .alwaysFull
      else if q.has "s" then .always
      else if p.has "S" then .alwaysFull else if p.has "s" then .always else old := by
  have hexcl : (p ++ q).has "S" = true → (p ++ q).has "s" = false :=
    Rule.has_eq_false_of_full hpq
  rw [CommandLine.has_append, CommandLine.has_append] at hexcl ⊢
  revert hexcl
  cases p.has "S" <;> cases q.has "S" <;> cases p.has "s" <;> cases q.has "s" <;> simp

/-- The effects of two layers on an accumulating field are that of both in one. -/
theorem effect_append {f : Field} (hf : f ∈ accumulating) (old : f.Value) :
    f.effect (p ++ q) old = f.effect q (f.effect p old) := by
  cases f with
  | logLevel | projectDependencies | taskNames | excludedTaskNames => exact absurd hf (by decide)
  | systemProperties | projectProperties =>
    simp only [effect]
    rw [CommandLine.values_append, putProperties_append]
  | initScripts =>
    simp only [effect]
    rw [CommandLine.values_append, List.map_append, List.append_assoc]
  | searchUpwards =>
    simp only [effect]
    rw [CommandLine.value?_append, CommandLine.has_append]
    cases q.value? "e" <;> cases p.value? "e" <;> simp [Bool.and_assoc]
  | projectDir | userHomeDir =>
    simp only [effect]
    rw [CommandLine.value?_append, Option.map_or, Option.or_assoc]
  | buildFile | settingsFile => exact path_append hpq old (by decide)
  | cacheUsage => exact cacheUsage_append hpq old
  | embeddedScript =>
    simp only [effect]
    rw [CommandLine.value?_append, Option.or_assoc]
  | showStacktrace => exact showStacktrace_append hpq old
  | colorOutput =>
    simp only [effect]
    rw [CommandLine.has_append, Bool.not_or, Bool.and_assoc]
  | dryRun | noOpt | profile =>
    simp only [effect]
    rw [CommandLine.has_append, Bool.or_assoc]

end Field

/-! ## Layers -/

namespace Conversion

/-- **Two layers are one command line.** If the first layer converts, and so do both in one
    command line, then the second converts on top of the first. Every accumulating field
    is then as if all had been said at once; the tasks and the excluded tasks are those of
    the last layer that names any. -/
theorem get_layered {p q : CommandLine} {t c d : Configuration}
    (hp : (convertWith .standard p t).result = .ok c)
    (hpq : (convertWith .standard (p ++ q) t).result = .ok d) :
    ∃ c', (convertWith .standard q c).result = .ok c' ∧
      (∀ f ∈ Field.accumulating, f.get c' = f.get d) ∧
      c'.taskNames
        = (if q.extra ≠ [] then q.extra else if p.extra ≠ [] then p.extra else t.taskNames) ∧
      c'.excludedTaskNames
        = if q.has "x" then q.values "x" else if p.has "x" then p.values "x"
          else t.excludedTaskNames := by
  have hobeyed : ∀ r : Rule, ∀ e, ¬ r.Broken (p ++ q) e := exists_result_iff.1 ⟨d, hpq⟩
  have hq : ∀ r : Rule, ∀ e, ¬ r.Broken q e := by
    intro r e hbroken
    obtain ⟨e', hbroken'⟩ := hbroken.append p
    exact hobeyed r e' hbroken'
  obtain ⟨c', hc'⟩ := (exists_result_iff (t := c)).2 hq
  have hlayers (f : Field) : f.get c' = f.effect q (f.effect p (f.get t)) := by
    rw [Field.get_of_result_eq_ok hc', Field.get_of_result_eq_ok hp]
  refine ⟨c', hc', fun f hf => ?_, ?_, ?_⟩
  · rw [hlayers, ← Field.effect_append hobeyed hf, Field.get_of_result_eq_ok hpq]
  · have htasks : c'.taskNames = if q.extra.isEmpty then
        (if p.extra.isEmpty then t.taskNames else p.extra) else q.extra := hlayers .taskNames
    rw [htasks]
    cases q.extra <;> cases p.extra <;> rfl
  · exact hlayers .excludedTaskNames

/-- The first layer embeds a script over a build file and excludes a task. The second gives
    a property again, and names another task. -/
theorem get_layered_embedded :
    ∃ c d,
      (convertWith .standard (.build [.values "e" ["task a"], .values "D" ["k=1", "l"],
        .values "x" ["lint"], .extra ["build"]])
          { buildFile := some (.ofString "a.gradle") }).result = .ok c ∧
      (convertWith .standard (.build [.values "e" ["task a"], .values "D" ["k=1", "l"],
        .values "x" ["lint"], .extra ["build"]] ++ .build [.values "D" ["k=2"], .extra ["test"]])
          { buildFile := some (.ofString "a.gradle") }).result = .ok d ∧
      ∃ c', (convertWith .standard (.build [.values "D" ["k=2"], .extra ["test"]]) c).result
          = .ok c' ∧
        (∀ f ∈ Field.accumulating, f.get c' = f.get d) ∧
        c'.taskNames = ["test"] ∧ c'.excludedTaskNames = ["lint"] := by
  refine ⟨_, _, rfl, rfl, ?_⟩
  obtain ⟨c', hc', hfields, htasks, hexcluded⟩ := get_layered
    (p := .build [.values "e" ["task a"], .values "D" ["k=1", "l"], .values "x" ["lint"],
      .extra ["build"]])
    (q := .build [.values "D" ["k=2"], .extra ["test"]])
    (t := { buildFile := some (.ofString "a.gradle") }) rfl rfl
  exact ⟨c', hc', hfields, htasks, hexcluded⟩

end Conversion
end LaunchConfig
