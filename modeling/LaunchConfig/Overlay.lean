import LaunchConfig.Conversion.Build

/-!
# Runs of changes

A configuration may be changed in several steps. A step that fails leaves the
configuration as it was, and the run goes on.

Results:

* `apply_of_error`: a step that fails changes nothing;
* `run_append`: a run may be cut in two.
-/

namespace LaunchConfig

/-- A change of a configuration. -/
inductive OverlayStep where
  | useEmbeddedScript (source : String)
  | addInitScript (script : RawText)
  | convert (source : LoggingSource) (p : CommandLine)

namespace OverlayStep

/-- The configuration after the step, or why there is none. -/
def result (s : OverlayStep) (c : Configuration) : Except ConversionError Configuration :=
  match s with
  | .useEmbeddedScript source => .ok (c.useEmbeddedScript source)
  | .addInitScript script => .ok (c.addInitScript script)
  | .convert source p => (Conversion.convertWith source p c).result

/-- The configuration with which the run goes on. -/
def apply (c : Configuration) (s : OverlayStep) : Configuration :=
  match s.result c with
  | .ok c' => c'
  | .error _ => c

/-- The configuration after all steps. -/
def run (c : Configuration) (steps : List OverlayStep) : Configuration := steps.foldl apply c

theorem apply_of_ok {c c' : Configuration} {s : OverlayStep} (h : s.result c = .ok c') :
    apply c s = c' := by
  simp [apply, h]

theorem apply_of_error {c : Configuration} {s : OverlayStep} {e : ConversionError}
    (h : s.result c = .error e) : apply c s = c := by
  simp [apply, h]

@[simp] theorem run_nil (c : Configuration) : run c [] = c := rfl

@[simp] theorem run_cons (c : Configuration) (s : OverlayStep) (steps : List OverlayStep) :
    run c (s :: steps) = run (apply c s) steps := rfl

theorem run_append (c : Configuration) (steps later : List OverlayStep) :
    run c (steps ++ later) = run (run c steps) later :=
  List.foldl_append

end OverlayStep
end LaunchConfig
