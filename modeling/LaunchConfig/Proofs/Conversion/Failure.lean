import LaunchConfig.Conversion.Build

/-!
# Why a conversion fails

There are four rules for a command line, which count in a fixed order: one for the
value of `-C` and three for options that exclude each other. `Rule.Broken` says what
breaks a rule, and which error tells so, from the presence and the values of options
alone.

Results:

* `Rule.error?_eq_some_iff`: the error of a rule;
* `validate_eq_error_iff`: the checks fail with the error of the first rule that is
  broken;
* `result_eq_error_iff_firstBroken`: so does a conversion, whatever it is applied to;
* `exists_result_iff`: a conversion succeeds exactly if no rule is broken.
-/

namespace LaunchConfig

/-- A rule for command lines. -/
inductive Rule where
  | cacheUsage
  | embeddedScript
  | stacktrace
  | dependencies
  deriving DecidableEq, Repr

namespace Rule

/-- All rules, in the order in which they count. -/
def all : List Rule := [cacheUsage, embeddedScript, stacktrace, dependencies]

/-- The command line breaks the rule, and the error says how. -/
inductive Broken (p : CommandLine) : Rule → ConversionError → Prop
  | cacheUsage {text : String} : (p.values "C").getLast? = some text →
      sameUpToCase "on" text = false → sameUpToCase "rebuild" text = false →
        Broken p cacheUsage (.invalidValue "C" text (CacheUsage.unknownMessage text))
  /-- Only the first of the three options counts. -/
  | embeddedScript {x : String} : p.has "e" = true → ["b", "c", "u"].find? p.has = some x →
      Broken p embeddedScript (.conflictingOptions "e" x)
  | stacktrace : p.has "S" = true → p.has "s" = true →
      Broken p stacktrace (.conflictingOptions "S" "s")
  | dependencies : p.has "A" = true → p.has "a" = true →
      Broken p dependencies (.conflictingOptions "A" "a")

/-- The first of the rules that is broken is broken with the error. -/
def FirstBroken (p : CommandLine) (rules : List Rule) (e : ConversionError) : Prop :=
  ∃ before r after, rules = before ++ r :: after ∧ (∀ q ∈ before, ∀ e', ¬ q.Broken p e') ∧
    r.Broken p e

/-! ## The error of a rule -/

/-- The error if an option is found together with one that it excludes. -/
def exclusion? (p : CommandLine) (first : String) (others : List String) :
    Option ConversionError :=
  if p.has first then (others.find? p.has).map (.conflictingOptions first) else none

/-- The error if the rule is broken. -/
def error? (p : CommandLine) : Rule → Option ConversionError
  | cacheUsage =>
    match Conversion.requestedCache p with
    | .error e => some e
    | .ok _ => none
  | embeddedScript => exclusion? p "e" ["b", "c", "u"]
  | stacktrace => exclusion? p "S" ["s"]
  | dependencies => exclusion? p "A" ["a"]

variable {p : CommandLine} {r : Rule} {e : ConversionError}

theorem exclusion?_eq_some_iff {first : String} {others : List String} :
    exclusion? p first others = some e ↔
      p.has first = true ∧ ∃ x, others.find? p.has = some x ∧ .conflictingOptions first x = e := by
  unfold exclusion?
  cases p.has first <;> simp

theorem find?_singleton_eq_some_iff {id x : String} :
    [id].find? p.has = some x ↔ p.has id = true ∧ x = id := by
  cases h : p.has id <;> simp [h, eq_comm]

theorem ofText?_eq_none_iff {text : String} :
    CacheUsage.ofText? text = none ↔
      sameUpToCase "on" text = false ∧ sameUpToCase "rebuild" text = false := by
  simp [CacheUsage.ofText?, CacheUsage.all, CacheUsage.name, and_comm]

theorem requestedCache_eq_error_iff :
    Conversion.requestedCache p = .error e ↔
      ∃ text, (p.values "C").getLast? = some text ∧ CacheUsage.ofText? text = none ∧
        .invalidValue "C" text (CacheUsage.unknownMessage text) = e := by
  have hvalue : p.value? BuildOption.cache.id = (p.values "C").getLast? := rfl
  unfold Conversion.requestedCache
  rw [hvalue]
  cases (p.values "C").getLast? with
  | none => simp
  | some text =>
    cases hu : CacheUsage.ofText? text with
    | none => simp [hu]; rfl
    | some u => simp [hu]

theorem error?_eq_some_iff : r.error? p = some e ↔ r.Broken p e := by
  cases r with
  | cacheUsage =>
    have herror : error? p cacheUsage = some e ↔ Conversion.requestedCache p = .error e := by
      unfold error?
      cases Conversion.requestedCache p <;> simp
    rw [herror, requestedCache_eq_error_iff]
    constructor
    · rintro ⟨text, hlast, hnone, rfl⟩
      obtain ⟨hon, hrebuild⟩ := ofText?_eq_none_iff.1 hnone
      exact .cacheUsage hlast hon hrebuild
    · rintro ⟨hlast, hon, hrebuild⟩
      exact ⟨_, hlast, ofText?_eq_none_iff.2 ⟨hon, hrebuild⟩, rfl⟩
  | embeddedScript =>
    rw [error?, exclusion?_eq_some_iff]
    constructor
    · rintro ⟨he, x, hx, rfl⟩
      exact .embeddedScript he hx
    · rintro ⟨⟩
      exact ⟨‹_›, _, ‹_›, rfl⟩
  | stacktrace =>
    rw [error?, exclusion?_eq_some_iff]
    constructor
    · rintro ⟨hS, x, hx, rfl⟩
      obtain ⟨hs, rfl⟩ := find?_singleton_eq_some_iff.1 hx
      exact .stacktrace hS hs
    · rintro ⟨⟩
      exact ⟨‹_›, _, find?_singleton_eq_some_iff.2 ⟨‹_›, rfl⟩, rfl⟩
  | dependencies =>
    rw [error?, exclusion?_eq_some_iff]
    constructor
    · rintro ⟨hA, x, hx, rfl⟩
      obtain ⟨ha, rfl⟩ := find?_singleton_eq_some_iff.1 hx
      exact .dependencies hA ha
    · rintro ⟨⟩
      exact ⟨‹_›, _, find?_singleton_eq_some_iff.2 ⟨‹_›, rfl⟩, rfl⟩

theorem mem_all (r : Rule) : r ∈ all := by
  cases r <;> decide

theorem error?_eq_none_iff : r.error? p = none ↔ ∀ e, ¬ r.Broken p e := by
  rw [Option.eq_none_iff_forall_ne_some]
  exact forall_congr' fun e => not_congr error?_eq_some_iff

theorem findSome?_error?_eq_none_iff :
    all.findSome? (error? p) = none ↔ ∀ r : Rule, ∀ e, ¬ r.Broken p e := by
  rw [List.findSome?_eq_none_iff]
  constructor
  · intro h r
    exact error?_eq_none_iff.1 (h r (mem_all r))
  · intro h r _
    exact error?_eq_none_iff.2 (h r)

theorem findSome?_error?_eq_some_iff {rules : List Rule} :
    rules.findSome? (error? p) = some e ↔ FirstBroken p rules e := by
  rw [List.findSome?_eq_some_iff]
  constructor
  · rintro ⟨before, r, after, hrules, he, hbefore⟩
    exact ⟨before, r, after, hrules, fun q hq => error?_eq_none_iff.1 (hbefore q hq),
      error?_eq_some_iff.1 he⟩
  · rintro ⟨before, r, after, hrules, hbefore, he⟩
    exact ⟨before, r, after, hrules, error?_eq_some_iff.2 he,
      fun q hq => error?_eq_none_iff.2 (hbefore q hq)⟩

/-- Each rule asks for an option; without these options none is broken. -/
theorem not_broken_of_absent (h : ∀ id ∈ ["C", "e", "S", "A"], p.has id = false) (r : Rule)
    (e : ConversionError) : ¬ r.Broken p e := by
  intro hbroken
  cases hbroken with
  | cacheUsage hlast _ _ =>
    rw [CommandLine.values_of_not_has (h "C" (by decide))] at hlast
    cases hlast
  | embeddedScript he _ => cases (h "e" (by decide)).symm.trans he
  | stacktrace hS _ => cases (h "S" (by decide)).symm.trans hS
  | dependencies hA _ => cases (h "A" (by decide)).symm.trans hA

end Rule

namespace Conversion

variable {p : CommandLine} {e : ConversionError}

/-! ## The checks -/

theorem conflict?_eq (p : CommandLine) :
    conflict? p = [Rule.embeddedScript, .stacktrace, .dependencies].findSome? (Rule.error? p) := by
  have hexclusion (first : OptionSpec) (others : List OptionSpec) :
      (if p.has first.id then
          (others.find? fun o => p.has o.id).map fun o =>
            ConversionError.conflictingOptions first.id o.id
        else none) = Rule.exclusion? p first.id (others.map (·.id)) := by
    simp [Rule.exclusion?, List.find?_map, Function.comp_def]
  have hS : BuildOption.fullStacktrace.id = "S" := by decide
  have hs : BuildOption.stacktrace.id = "s" := by decide
  simp only [conflict?, BuildOption.exclusions, List.findSome?_cons, hexclusion, List.map_cons,
    List.map_nil, hS, hs]
  rfl

/-- The checks fail with the error of the first rule that is broken. -/
theorem validate_eq_error_iff : validate p = .error e ↔ Rule.FirstBroken p Rule.all e := by
  rw [← Rule.findSome?_error?_eq_some_iff, Rule.all, List.findSome?_cons, ← conflict?_eq]
  unfold validate Rule.error?
  cases requestedCache p with
  | error e' => simp
  | ok usage? => cases conflict? p <;> simp

/-- A conversion fails exactly if a rule is broken, and with the error of the first that is. -/
theorem result_eq_error_iff_firstBroken {t : Configuration} :
    (convertWith .standard p t).result = .error e ↔ Rule.FirstBroken p Rule.all e := by
  rw [result_standard, ← validate_eq_error_iff]
  cases validate p <;> simp [Except.map]

/-- A conversion succeeds exactly if no rule is broken. -/
theorem exists_result_iff {t : Configuration} :
    (∃ c, (convertWith .standard p t).result = .ok c) ↔ ∀ r : Rule, ∀ e, ¬ r.Broken p e := by
  have hok : (∃ c, (convertWith .standard p t).result = .ok c) ↔
      ∀ e, (convertWith .standard p t).result ≠ .error e := by
    cases (convertWith .standard p t).result <;> simp
  rw [hok, ← Rule.findSome?_error?_eq_none_iff, Option.eq_none_iff_forall_ne_some]
  exact forall_congr' fun e => not_congr
    (result_eq_error_iff_firstBroken.trans Rule.findSome?_error?_eq_some_iff.symm)

theorem exists_result_of_result {t c : Configuration}
    (h : (convertWith .standard p t).result = .ok c) (t' : Configuration) :
    ∃ c', (convertWith .standard p t').result = .ok c' :=
  exists_result_iff.2 (exists_result_iff.1 ⟨c, h⟩)

end Conversion
end LaunchConfig
