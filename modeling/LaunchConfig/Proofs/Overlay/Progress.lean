import LaunchConfig.Proofs.Conversion.Attainable
import LaunchConfig.Proofs.Overlay.Failure

/-!
# What a run does not take back

No step undoes what a step before it has done for good: a search that has ended does not
begin again, a switch that is on stays on, a script or a directory that is there stays
there, properties keep their keys and init scripts their places. `Field.Kept` says for
each field what of its old value a later one keeps. Log level, files, cache usage and
excluded tasks keep nothing, for a later step may set them anew.

Results:

* `Field.kept_effect`: what a command line keeps of a field;
* `kept_apply`, `kept_run`: so do a step and a run of steps;
* `initScripts_run`: the init scripts after a run;
* `keysWithoutEquals_run`: the keys of properties after a run;
* `run_keeps`: all of these, between any two steps of a run.
-/

namespace LaunchConfig

/-! ## Keys of properties -/

theorem keys_subset_putProperties (d : Dict String) (texts : List String) :
    d.keys ⊆ (putProperties d texts).keys := by
  intro k hk
  rw [Dict.mem_keys_iff, Dict.contains] at hk ⊢
  rw [find?_putProperties, Option.isSome_or, hk, Bool.or_true]

/-! ## Fields -/

namespace Field

/-- What the new value of a field keeps of the old one. -/
def Kept : (f : Field) → f.Value → f.Value → Prop
  | searchUpwards, old, new | colorOutput, old, new => old = false → new = false
  | dryRun, old, new | noOpt, old, new | profile, old, new => old = true → new = true
  | embeddedScript, old, new => old ≠ none → new ≠ none
  | projectDir, old, new | userHomeDir, old, new => old ≠ none → new ≠ none
  | showStacktrace, old, new => old ≠ .internalExceptions → new ≠ .internalExceptions
  | projectDependencies, old, new => old ≠ .defaultTasks → new ≠ .defaultTasks
  | taskNames, old, new => old ≠ [] → new ≠ []
  | systemProperties, old, new | projectProperties, old, new => old.keys ⊆ new.keys
  | initScripts, old, new => old <+: new
  | logLevel, _, _ | buildFile, _, _ | settingsFile, _, _ | cacheUsage, _, _
  | excludedTaskNames, _, _ => True

theorem Kept.refl (f : Field) (v : f.Value) : f.Kept v v := by
  cases f with
  | systemProperties | projectProperties => exact List.Subset.refl _
  | initScripts => exact List.prefix_refl _
  | logLevel | buildFile | settingsFile | cacheUsage | excludedTaskNames => trivial
  | _ => exact id

theorem Kept.trans {f : Field} {u v w : f.Value} (huv : f.Kept u v) (hvw : f.Kept v w) :
    f.Kept u w := by
  cases f with
  | systemProperties | projectProperties => exact List.Subset.trans huv hvw
  | initScripts => exact List.IsPrefix.trans huv hvw
  | logLevel | buildFile | settingsFile | cacheUsage | excludedTaskNames => trivial
  | _ => exact hvw ∘ huv

/-- What a command line makes of a field keeps what is to be kept. -/
theorem kept_effect (p : CommandLine) (f : Field) (old : f.Value) :
    f.Kept old (f.effect p old) := by
  cases f with
  | systemProperties | projectProperties => exact keys_subset_putProperties _ _
  | initScripts => exact List.prefix_append _ _
  | logLevel | buildFile | settingsFile | cacheUsage | excludedTaskNames => trivial
  | colorOutput =>
    intro h
    simp [effect, h]
  | searchUpwards =>
    intro h
    simp [effect, h]
  | dryRun | noOpt | profile =>
    intro h
    simp [effect, h]
  | embeddedScript | projectDir | userHomeDir =>
    intro h
    simp [effect, h]
  | showStacktrace =>
    intro h
    simp only [effect]
    split_ifs <;> first | exact h | simp
  | projectDependencies =>
    intro h
    simp only [effect]
    split_ifs <;> first | exact h | simp
  | taskNames =>
    intro h
    simp only [effect]
    split_ifs with hextra
    · exact h
    · exact fun hnil => hextra (by rw [hnil]; rfl)

end Field

namespace OverlayStep

/-! ## One step -/

/-- If the step converts a command line, it does so with the standard logging options. -/
def LogsAsStandard : OverlayStep → Prop
  | convert source _ => source = .standard
  | useEmbeddedScript _ | addInitScript _ => True

/-- The init scripts that the step adds, if it does not fail. -/
def scripts : OverlayStep → List RawText
  | useEmbeddedScript _ => []
  | addInitScript script => [script]
  | convert _ p => (p.values "I").map .ofString

variable {c c' : Configuration} {s : OverlayStep}

theorem kept_of_result (hs : s.LogsAsStandard) (h : s.result c = .ok c') (f : Field) :
    f.Kept (f.get c) (f.get c') := by
  cases s with
  | useEmbeddedScript source =>
    cases h
    cases f with
    | searchUpwards => exact fun _ => rfl
    | embeddedScript => exact fun _ => nofun
    | buildFile | settingsFile => trivial
    | _ => exact .refl _ _
  | addInitScript script =>
    cases h
    cases f with
    | initScripts => exact List.prefix_append _ _
    | _ => exact .refl _ _
  | convert source p =>
    obtain rfl : source = .standard := hs
    rw [Field.get_of_result_eq_ok h]
    exact Field.kept_effect p f _

/-- A step keeps what is to be kept, and one that fails keeps everything. -/
theorem kept_apply (hs : s.LogsAsStandard) (c : Configuration) (f : Field) :
    f.Kept (f.get c) (f.get (apply c s)) := by
  cases h : s.result c with
  | error e =>
    rw [apply_of_error h]
    exact .refl f _
  | ok c' =>
    rw [apply_of_ok h]
    exact kept_of_result hs h f

theorem initScripts_of_result (h : s.result c = .ok c') :
    c'.initScripts = c.initScripts ++ s.scripts := by
  cases s with
  | useEmbeddedScript source =>
    cases h
    exact (List.append_nil _).symm
  | addInitScript script =>
    cases h
    rfl
  | convert source p =>
    obtain ⟨usage?, l, -, -, rfl⟩ := Conversion.result_eq_ok_iff.1 h
    rw [Conversion.applied_eq]
    rfl

theorem keysWithoutEquals_of_result (h : s.result c = .ok c') :
    (KeysWithoutEquals c.systemProperties → KeysWithoutEquals c'.systemProperties) ∧
      (KeysWithoutEquals c.projectProperties → KeysWithoutEquals c'.projectProperties) := by
  cases s with
  | useEmbeddedScript source =>
    cases h
    exact ⟨id, id⟩
  | addInitScript script =>
    cases h
    exact ⟨id, id⟩
  | convert source p =>
    obtain ⟨usage?, l, -, -, rfl⟩ := Conversion.result_eq_ok_iff.1 h
    rw [Conversion.applied_eq]
    exact ⟨fun hkeys => hkeys.putProperties _, fun hkeys => hkeys.putProperties _⟩

/-! ## A whole run -/

theorem kept_run {steps : List OverlayStep} (hsteps : ∀ s ∈ steps, s.LogsAsStandard)
    (c : Configuration) (f : Field) : f.Kept (f.get c) (f.get (run c steps)) := by
  induction steps generalizing c with
  | nil => exact .refl f _
  | cons s steps ih =>
    rw [List.forall_mem_cons] at hsteps
    rw [run_cons]
    exact (kept_apply hsteps.1 c f).trans (ih hsteps.2 (apply c s))

/-- The init scripts are those there were, and then those of each step that has not
    failed. -/
theorem initScripts_run (c : Configuration) (steps : List OverlayStep) :
    (run c steps).initScripts = c.initScripts ++ (surviving c steps).flatMap scripts := by
  induction steps generalizing c with
  | nil => exact (List.append_nil _).symm
  | cons s steps ih =>
    rw [run_cons, ih]
    cases h : s.result c with
    | error e => rw [apply_of_error h, surviving_cons_of_error h]
    | ok c' =>
      rw [apply_of_ok h, surviving_cons_of_ok h, initScripts_of_result h, List.flatMap_cons,
        List.append_assoc]

theorem keysWithoutEquals_run (c : Configuration) (steps : List OverlayStep) :
    (KeysWithoutEquals c.systemProperties → KeysWithoutEquals (run c steps).systemProperties) ∧
      (KeysWithoutEquals c.projectProperties →
        KeysWithoutEquals (run c steps).projectProperties) := by
  induction steps generalizing c with
  | nil => exact ⟨id, id⟩
  | cons s steps ih =>
    rw [run_cons]
    cases h : s.result c with
    | error e =>
      rw [apply_of_error h]
      exact ih c
    | ok c' =>
      obtain ⟨hsystem, hproject⟩ := keysWithoutEquals_of_result h
      rw [apply_of_ok h]
      exact ⟨(ih c').1 ∘ hsystem, (ih c').2 ∘ hproject⟩

/-- **A run only moves forward.** Between any two points of a run of steps, failing ones
    among them, each field keeps what is to be kept of it. After the run the init scripts
    are those there were and then those of the steps that have not failed, in order. And
    there is no `=` in a key of a property unless there was one at the beginning. -/
theorem run_keeps (c : Configuration) (earlier later : List OverlayStep)
    (hsteps : ∀ s ∈ earlier ++ later, s.LogsAsStandard) :
    (∀ f : Field, f.Kept (f.get (run c earlier)) (f.get (run c (earlier ++ later)))) ∧
    (run c (earlier ++ later)).initScripts
      = c.initScripts ++ (surviving c (earlier ++ later)).flatMap scripts ∧
    (KeysWithoutEquals c.systemProperties →
      KeysWithoutEquals (run c (earlier ++ later)).systemProperties) ∧
    (KeysWithoutEquals c.projectProperties →
      KeysWithoutEquals (run c (earlier ++ later)).projectProperties) := by
  refine ⟨fun f => ?_, initScripts_run c _, keysWithoutEquals_run c _⟩
  rw [List.forall_mem_append] at hsteps
  rw [run_append]
  exact kept_run hsteps.2 (run c earlier) f

/-- A command line names a task, an init script and a property. One that asks for an
    embedded script and a build file at once fails, and its init script is left out; then
    a script is embedded and another init script added. -/
theorem run_keeps_conflict :
    (run {} [convert .standard (.build [.values "I" ["a.gradle"], .values "D" ["k=v=w"],
        .extra ["build"]]),
      convert .standard (.build [.values "e" ["task x"], .values "b" ["b.gradle"],
        .values "I" ["b.gradle"]]),
      useEmbeddedScript "task a", addInitScript (.ofString "c.gradle")]).initScripts
      = [.ofString "a.gradle", .ofString "c.gradle"] ∧
    (run {} [convert .standard (.build [.values "I" ["a.gradle"], .values "D" ["k=v=w"],
        .extra ["build"]]),
      convert .standard (.build [.values "e" ["task x"], .values "b" ["b.gradle"],
        .values "I" ["b.gradle"]]),
      useEmbeddedScript "task a", addInitScript (.ofString "c.gradle")]).taskNames ≠ [] ∧
    KeysWithoutEquals
      (run {} [convert .standard (.build [.values "I" ["a.gradle"], .values "D" ["k=v=w"],
          .extra ["build"]]),
        convert .standard (.build [.values "e" ["task x"], .values "b" ["b.gradle"],
          .values "I" ["b.gradle"]]),
        useEmbeddedScript "task a", addInitScript (.ofString "c.gradle")]).systemProperties := by
  have hsteps : ∀ s ∈ [convert .standard (.build [.values "I" ["a.gradle"],
      .values "D" ["k=v=w"], .extra ["build"]])] ++
      [convert .standard (.build [.values "e" ["task x"], .values "b" ["b.gradle"],
        .values "I" ["b.gradle"]]),
      useEmbeddedScript "task a", addInitScript (.ofString "c.gradle")], s.LogsAsStandard := by
    simp [LogsAsStandard]
  obtain ⟨hkept, hscripts, hkeys, -⟩ := run_keeps {} _ _ hsteps
  refine ⟨hscripts.trans ?_, hkept .taskNames ?_, hkeys fun k hk => ?_⟩
  · decide +kernel
  · decide +kernel
  · cases hk

end OverlayStep
end LaunchConfig
