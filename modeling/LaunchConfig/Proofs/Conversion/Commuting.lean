import LaunchConfig.Proofs.Configuration.Merging
import LaunchConfig.Proofs.Conversion.Failure
import LaunchConfig.Proofs.Conversion.Written

/-!
# Independent layers

Two command lines may be converted one after the other in either order, unless there is a field
that both of them write. Even then some do not get in each other's way: a switch is turned one
way only, and properties with different keys are put in different places.

Results:

* `Field.effect_comm`: what independent command lines make of a field;
* `Conversion.convertWith_comm`: independent layers commute.
-/

namespace LaunchConfig

variable {p q : CommandLine}

namespace Field

/-- The switches that are turned one way only. -/
def oneWay : List Field := [searchUpwards, colorOutput, dryRun, noOpt, profile]

end Field

/-- No field is written by both command lines, but for switches that are turned one way only and
    properties without a common key. -/
def CommandLine.Independent (p q : CommandLine) : Prop :=
  ∀ f : Field, f.Written p → f.Written q →
    f ∈ Field.oneWay ∨
    (f = .systemProperties ∧ KeysApart (p.values "D") (q.values "D")) ∨
    (f = .projectProperties ∧ KeysApart (p.values "P") (q.values "P"))

namespace Field

theorem effect_comm_of_oneWay {f : Field} (hf : f ∈ oneWay) (old : f.Value) :
    f.effect q (f.effect p old) = f.effect p (f.effect q old) := by
  cases f with
  | searchUpwards =>
    simp only [effect]
    cases p.value? "e" <;> cases q.value? "e" <;> simp [Bool.and_right_comm]
  | colorOutput => exact Bool.and_right_comm ..
  | dryRun | noOpt | profile => exact Bool.or_right_comm ..
  | _ => exact absurd hf (by decide)

/-- Independent command lines make the same of a field in either order. -/
theorem effect_comm (h : p.Independent q) (f : Field) (old : f.Value) :
    f.effect q (f.effect p old) = f.effect p (f.effect q old) := by
  by_cases hp : f.Written p
  · by_cases hq : f.Written q
    · rcases h f hp hq with hf | ⟨rfl, hkeys⟩ | ⟨rfl, hkeys⟩
      · exact effect_comm_of_oneWay hf old
      · exact putProperties_comm hkeys old
      · exact putProperties_comm hkeys old
    · rw [effect_of_not_written hq, effect_of_not_written hq]
  · rw [effect_of_not_written hp, effect_of_not_written hp]

end Field

namespace Conversion

/-- **Independent layers commute.** Let two command lines be converted without an error, and
    write no field in common but for switches and properties without a common key. Then to
    convert one after the other comes to the same in either order, whatever is converted
    onto. -/
theorem convertWith_comm {t₁ t₂ c₁ c₂ : Configuration}
    (hp : (convertWith .standard p t₁).result = .ok c₁)
    (hq : (convertWith .standard q t₂).result = .ok c₂) (h : p.Independent q)
    (t : Configuration) :
    ∃ c d e, (convertWith .standard p t).result = .ok c ∧
      (convertWith .standard q t).result = .ok d ∧
      (convertWith .standard q c).result = .ok e ∧ (convertWith .standard p d).result = .ok e := by
  obtain ⟨c, hc⟩ := exists_result_of_result hp t
  obtain ⟨d, hd⟩ := exists_result_of_result hq t
  obtain ⟨e, he⟩ := exists_result_of_result hq c
  obtain ⟨e', he'⟩ := exists_result_of_result hp d
  have hsame : e' = e := by
    refine Field.ext fun f => ?_
    rw [Field.get_of_result_eq_ok he', Field.get_of_result_eq_ok hd, Field.get_of_result_eq_ok he,
      Field.get_of_result_eq_ok hc, Field.effect_comm h]
  exact ⟨c, d, e, hc, hd, he, hsame ▸ he'⟩

/-- Both command lines search no parent directory, one through an embedded script, both make
    a dry run, and each gives a system property of its own. -/
theorem convertWith_comm_embedded :
    ∃ p q : CommandLine, p.Independent q ∧
      (Field.searchUpwards.Written p ∧ Field.searchUpwards.Written q) ∧
      (Field.systemProperties.Written p ∧ Field.systemProperties.Written q) ∧
      (∃ c, (convertWith .standard p {}).result = .ok c) ∧
      (∃ c, (convertWith .standard q {}).result = .ok c) ∧
      ∀ t, ∃ c d e, (convertWith .standard p t).result = .ok c ∧
        (convertWith .standard q t).result = .ok d ∧
        (convertWith .standard q c).result = .ok e ∧
        (convertWith .standard p d).result = .ok e := by
  let p := (((CommandLine.empty.withValues "e" ["task a"]).withOption "m").withValues "D"
    ["k=1", "l"]).withExtra ["build"]
  let q := (((CommandLine.empty.withOption "u").withOption "m").withValues "D" ["m=k=2"]).withValues
    "I" ["i.gradle"]
  have hindependent : p.Independent q := by
    intro f
    cases f <;> decide
  have hp : (convertWith .standard p {}).result = .ok _ := rfl
  have hq : (convertWith .standard q {}).result = .ok _ := rfl
  exact ⟨p, q, hindependent, by decide, by decide, ⟨_, hp⟩, ⟨_, hq⟩,
    convertWith_comm hp hq hindependent⟩

end Conversion
end LaunchConfig
