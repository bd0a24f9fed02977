import LaunchConfig.Proofs.Configuration.Merging
import LaunchConfig.Proofs.Conversion.Failure
import LaunchConfig.Proofs.Conversion.Written

/-!
# The same command line twice

A command line that has been converted may be converted again, onto the configuration that has
come of it. A field that is replaced gets the value that it has, and properties that are put
again are found as before. Only the init scripts are added a second time.

Results:

* `Field.effect_effect`: what a command line makes of a field, it makes of it once;
* `Conversion.convertWith_twice`: a second conversion changes the init scripts at most.
-/

namespace LaunchConfig

/-- What a command line has made of a field that is not the init scripts, it leaves as it is. -/
theorem Field.effect_effect {f : Field} (hf : f ≠ .initScripts) (p : CommandLine)
    (old : f.Value) : f.effect p (f.effect p old) = f.effect p old := by
  by_cases hmerged : f ∈ merged
  · cases f with
    | systemProperties | projectProperties => exact putProperties_idem ..
    | initScripts => exact absurd rfl hf
    | _ => exact absurd hmerged (by decide)
  · rw [effect_eq_getD hmerged, effect_eq_getD hmerged]
    cases f.replacement? p <;> rfl

namespace Conversion

/-- **The same command line twice changes nothing but the init scripts.** If a command line is
    converted, it can be converted again onto the result. All fields stay as they are except
    for the init scripts: these are the old ones and then those of the command line twice. So
    the second conversion changes nothing exactly if the command line has no init script. -/
theorem convertWith_twice {p : CommandLine} {t c : Configuration}
    (h : (convertWith .standard p t).result = .ok c) :
    ∃ d, (convertWith .standard p c).result = .ok d ∧
      (∀ f : Field, f ≠ .initScripts → f.get d = f.get c) ∧
      d.initScripts = t.initScripts ++ (p.values "I").map .ofString
        ++ (p.values "I").map .ofString ∧
      ((convertWith .standard p c).result = .ok c ↔ p.values "I" = []) := by
  obtain ⟨d, hd⟩ := exists_result_of_result h c
  have hfields : ∀ f : Field, f ≠ .initScripts → f.get d = f.get c := by
    intro f hf
    rw [Field.get_of_result_eq_ok hd, Field.get_of_result_eq_ok h, Field.effect_effect hf]
  have hc : c.initScripts = t.initScripts ++ (p.values "I").map .ofString :=
    Field.get_of_result_eq_ok h .initScripts
  have hscripts : d.initScripts = c.initScripts ++ (p.values "I").map .ofString :=
    Field.get_of_result_eq_ok hd .initScripts
  refine ⟨d, hd, hfields, by rw [hscripts, hc], ?_⟩
  rw [hd, Except.ok.injEq]
  constructor
  · rintro rfl
    simpa using hscripts
  · intro hnone
    rw [hnone, List.map_nil, List.append_nil] at hscripts
    refine Field.ext fun f => ?_
    by_cases hf : f = .initScripts
    · subst hf
      exact hscripts
    · exact hfields f hf

/-- An embedded script that clears an older build file, a property that is given twice, and an
    init script, which is added twice. -/
theorem convertWith_twice_embedded :
    ∃ p c d, (convertWith .standard p { buildFile := some (.ofString "old.gradle") }).result
        = .ok c ∧
      p.value? "e" = some "task a" ∧ p.values "D" = ["k=1", "k=2"] ∧
      c.buildFile = none ∧ (convertWith .standard p c).result = .ok d ∧
      (∀ f : Field, f ≠ .initScripts → f.get d = f.get c) ∧
      c.initScripts = [.ofString "a"] ∧ d.initScripts = [.ofString "a", .ofString "a"] ∧
      (convertWith .standard p c).result ≠ .ok c := by
  let p := ((CommandLine.empty.withValues "e" ["task a"]).withValues "D" ["k=1", "k=2"]).withValues
    "I" ["a"]
  have hc : (convertWith .standard p { buildFile := some (.ofString "old.gradle") }).result
      = .ok _ := rfl
  obtain ⟨d, hd, hfields, hscripts, hsame⟩ := convertWith_twice hc
  exact ⟨p, _, d, hc, rfl, rfl, rfl, hd, hfields, rfl, hscripts,
    fun h => absurd (hsame.1 h) (by decide)⟩

end Conversion
end LaunchConfig
