import LaunchConfig.Overlay
import LaunchConfig.Proofs.Conversion.Failure

/-!
# Steps that fail

Whether a conversion fails, and with which error, is decided by its command line. What
it is applied to does not count; and in a run of several steps the ones that fail leave
no mark.

Results:

* `OverlayStep.trace_surviving`: without the steps that fail a run goes as before;
* `OverlayStep.failure_of_commandLine`: both, for all command lines and all runs.
-/

namespace LaunchConfig
namespace OverlayStep

/-! ## Runs without the steps that fail -/

/-- The steps of a run, each with what it comes to. -/
def trace (c : Configuration) :
    List OverlayStep → List (OverlayStep × Except ConversionError Configuration)
  | [] => []
  | s :: steps => (s, s.result c) :: trace (apply c s) steps

/-- The steps of a run that do not fail. -/
def surviving (c : Configuration) (steps : List OverlayStep) : List OverlayStep :=
  ((trace c steps).filter (·.2.isOk)).map Prod.fst

variable {c c' : Configuration} {s : OverlayStep} {e : ConversionError}

theorem trace_cons_of_ok (h : s.result c = .ok c') (steps : List OverlayStep) :
    trace c (s :: steps) = (s, .ok c') :: trace c' steps := by
  rw [trace, apply_of_ok h, h]

theorem filter_trace_cons_of_ok (h : s.result c = .ok c') (steps : List OverlayStep) :
    (trace c (s :: steps)).filter (·.2.isOk)
      = (s, .ok c') :: (trace c' steps).filter (·.2.isOk) := by
  rw [trace_cons_of_ok h]
  rfl

theorem filter_trace_cons_of_error (h : s.result c = .error e) (steps : List OverlayStep) :
    (trace c (s :: steps)).filter (·.2.isOk) = (trace c steps).filter (·.2.isOk) := by
  rw [trace, apply_of_error h, h]
  rfl

theorem surviving_cons_of_ok (h : s.result c = .ok c') (steps : List OverlayStep) :
    surviving c (s :: steps) = s :: surviving c' steps := by
  rw [surviving, filter_trace_cons_of_ok h, List.map_cons, surviving]

theorem surviving_cons_of_error (h : s.result c = .error e) (steps : List OverlayStep) :
    surviving c (s :: steps) = surviving c steps := by
  rw [surviving, filter_trace_cons_of_error h, surviving]

/-- Without the steps that fail, each of the others comes to what it came to before. -/
theorem trace_surviving (c : Configuration) (steps : List OverlayStep) :
    trace c (surviving c steps) = (trace c steps).filter (·.2.isOk) := by
  induction steps generalizing c with
  | nil => rfl
  | cons s steps ih =>
    cases h : s.result c with
    | error e => rw [surviving_cons_of_error h, filter_trace_cons_of_error h, ih]
    | ok c' =>
      rw [surviving_cons_of_ok h, trace_cons_of_ok h, filter_trace_cons_of_ok h, ih]

theorem run_surviving (c : Configuration) (steps : List OverlayStep) :
    run c (surviving c steps) = run c steps := by
  induction steps generalizing c with
  | nil => rfl
  | cons s steps ih =>
    cases h : s.result c with
    | error e => rw [surviving_cons_of_error h, run_cons, apply_of_error h, ih]
    | ok c' => rw [surviving_cons_of_ok h, run_cons, run_cons, apply_of_ok h, ih]

/-! ## What decides -/

/-- **Failure is decided by the command line alone.** A conversion fails exactly if its
    command line breaks a rule, with the error of the first rule that is broken. So it
    fails or succeeds alike whatever it is applied to. And in every run of steps the ones
    that fail may be left out: each of the others comes to the same configuration. -/
theorem failure_of_commandLine :
    (∀ (p : CommandLine) (t : Configuration) (e : ConversionError),
      (Conversion.convertWith .standard p t).result = .error e ↔
        ∃ before r after, Rule.all = before ++ r :: after ∧
          (∀ q ∈ before, ∀ e', ¬ q.Broken p e') ∧ r.Broken p e) ∧
    (∀ (p : CommandLine) (t u : Configuration),
      (∃ e, (Conversion.convertWith .standard p t).result = .error e ∧
        (Conversion.convertWith .standard p u).result = .error e) ∨
      ∃ c d, (Conversion.convertWith .standard p t).result = .ok c ∧
        (Conversion.convertWith .standard p u).result = .ok d) ∧
    ∀ (c : Configuration) (steps : List OverlayStep),
      trace c (surviving c steps) = (trace c steps).filter (·.2.isOk) ∧
        run c (surviving c steps) = run c steps := by
  refine ⟨fun p t e => Conversion.result_eq_error_iff_firstBroken, fun p t u => ?_,
    fun c steps => ⟨trace_surviving c steps, run_surviving c steps⟩⟩
  cases ht : (Conversion.convertWith .standard p t).result with
  | error e =>
    have hbroken := Conversion.result_eq_error_iff_firstBroken.1 ht
    exact .inl ⟨e, rfl, Conversion.result_eq_error_iff_firstBroken.2 hbroken⟩
  | ok c =>
    cases hu : (Conversion.convertWith .standard p u).result with
    | ok d => exact .inr ⟨c, d, rfl, rfl⟩
    | error e =>
      have hbroken := Conversion.result_eq_error_iff_firstBroken.1 hu
      have ht' : (Conversion.convertWith .standard p t).result = .error e :=
        Conversion.result_eq_error_iff_firstBroken.2 hbroken
      cases ht.symm.trans ht'

end OverlayStep
end LaunchConfig
