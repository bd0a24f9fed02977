import LaunchConfig.Proofs.Arguments.Building
import LaunchConfig.Proofs.Arguments.Writing

/-!
# Command lines on request

A request says of each option, by its id, what a command line is to give it: whether a
flag is set, the value of an option that takes one, the values of an option that may be
given several times. For every schema there is a command line that says just this, and
it conforms to the schema.

Results:

* `conforms_commandLine`: the command line conforms to the schema;
* `has_flag`, `value?_single`, `values_multiple`, …: it says what is requested.
-/

namespace LaunchConfig

/-- What a command line is to say. -/
structure Request where
  /-- Is the flag set? -/
  flag : String → Bool
  /-- The value of an option that takes a single one. -/
  value? : String → Option String
  /-- The values of an option that may be given several times. -/
  values : String → List String
  extra : List String

namespace Request

variable (r : Request) {s : Schema} {o : OptionSpec}

/-- The values that an option is given, if it is given. -/
def given? (o : OptionSpec) : Option (List String) :=
  match o.arity with
  | .flag => if r.flag o.id then some [] else none
  | .single => (r.value? o.id).map fun v => [v]
  | .multiple => if (r.values o.id).isEmpty then none else some (r.values o.id)

/-- The step that gives it to the option. -/
def steps (o : OptionSpec) : List CommandLine.Step :=
  match r.given? o with
  | some vs => [.values o.id vs]
  | none => []

/-- The command line that gives the options of a schema what is requested. -/
def commandLine (s : Schema) : CommandLine :=
  .build (s.options.flatMap r.steps ++ [.extra r.extra])

/-! ## What the command line says -/

theorem any_names_steps (o : OptionSpec) (id : String) :
    (r.steps o).any (·.names id) = (decide (o.id = id) && (r.given? o).isSome) := by
  unfold steps
  cases r.given? o <;> simp [CommandLine.Step.names, eq_comm]

theorem flatMap_valuesFor_steps (o : OptionSpec) (id : String) :
    (r.steps o).flatMap (·.valuesFor id) = if o.id = id then (r.given? o).getD [] else [] := by
  unfold steps
  cases r.given? o <;> simp [CommandLine.Step.valuesFor, eq_comm]

theorem flatMap_extras_steps (o : OptionSpec) :
    (r.steps o).flatMap CommandLine.Step.extras = [] := by
  unfold steps
  cases r.given? o <;> rfl

theorem has_commandLine_iff {id : String} :
    (r.commandLine s).has id = true ↔ ∃ o ∈ s.options, o.id = id ∧ (r.given? o).isSome = true := by
  have hextra : ([.extra r.extra] : List CommandLine.Step).any (·.names id) = false := rfl
  rw [commandLine, CommandLine.build_eq, CommandLine.has_applyAll, CommandLine.has_empty,
    Bool.false_or, List.any_append, hextra, Bool.or_false, List.any_flatMap, List.any_eq_true]
  simp only [any_names_steps, Bool.and_eq_true, decide_eq_true_eq]

theorem extra_commandLine : (r.commandLine s).extra = r.extra := by
  have hoptions : (s.options.flatMap r.steps).flatMap CommandLine.Step.extras = [] := by
    rw [List.flatMap_assoc]
    exact List.flatMap_eq_nil_iff.2 fun o _ => r.flatMap_extras_steps o
  rw [commandLine, CommandLine.build_eq, CommandLine.extra_applyAll, List.flatMap_append, hoptions]
  exact List.append_nil _

section Distinct

variable (hs : s.Distinct) (ho : o ∈ s.options)

include hs ho

theorem has_commandLine : (r.commandLine s).has o.id = (r.given? o).isSome := by
  rw [Bool.eq_iff_iff, has_commandLine_iff]
  constructor
  · rintro ⟨o', ho', hid, hgiven⟩
    rwa [← hs.eq_of_id ho' ho hid]
  · intro hgiven
    exact ⟨o, ho, rfl, hgiven⟩

theorem values_commandLine : (r.commandLine s).values o.id = (r.given? o).getD [] := by
  -- Only the step of the option itself has values for its id, and there is one such step.
  have hstep : ∀ o' ∈ s.options, (r.steps o').flatMap (·.valuesFor o.id)
      = if o'.id = o.id then (r.given? o).getD [] else [] := by
    intro o' ho'
    rw [flatMap_valuesFor_steps]
    by_cases hid : o'.id = o.id
    · rw [hs.eq_of_id ho' ho hid]
    · rw [if_neg hid, if_neg hid]
  have hids : (s.options.flatMap fun o' => if o'.id = o.id then (r.given? o).getD [] else [])
      = (s.options.map (·.id)).flatMap fun j => if j = o.id then (r.given? o).getD [] else [] := by
    rw [List.flatMap_map]
  have hmem : o.id ∈ s.options.map (·.id) := List.mem_map_of_mem ho
  rw [commandLine, CommandLine.build_eq, CommandLine.values_applyAll, List.flatMap_append,
    List.flatMap_assoc, List.flatMap_congr hstep, hids, flatMap_ite_eq hs.ids_nodup, if_pos hmem]
  exact List.append_nil _

theorem has_flag (hflag : o.arity = .flag) : (r.commandLine s).has o.id = r.flag o.id := by
  rw [r.has_commandLine hs ho, given?, hflag]
  cases r.flag o.id <;> rfl

theorem has_single (hsingle : o.arity = .single) :
    (r.commandLine s).has o.id = (r.value? o.id).isSome := by
  rw [r.has_commandLine hs ho, given?, hsingle, Option.isSome_map]

theorem value?_single (hsingle : o.arity = .single) :
    (r.commandLine s).value? o.id = r.value? o.id := by
  rw [CommandLine.value?, r.values_commandLine hs ho, given?, hsingle]
  cases r.value? o.id <;> rfl

theorem has_multiple (hmultiple : o.arity = .multiple) :
    (r.commandLine s).has o.id = !(r.values o.id).isEmpty := by
  rw [r.has_commandLine hs ho, given?, hmultiple]
  cases r.values o.id <;> rfl

theorem values_multiple (hmultiple : o.arity = .multiple) :
    (r.commandLine s).values o.id = r.values o.id := by
  rw [r.values_commandLine hs ho, given?, hmultiple]
  cases r.values o.id <;> rfl

end Distinct

/-! ## Conformance -/

/-- A flag is given no value, any other option a value at least. -/
theorem given?_eq_some {vs : List String} (h : r.given? o = some vs) :
    (o.takesValue = false → vs = []) ∧ (o.takesValue = true → vs ≠ []) ∧
      (o.arity = .single → vs.length ≤ 1) := by
  unfold given? at h
  cases harity : o.arity with
  | flag =>
    cases hf : r.flag o.id with
    | false => simp [harity, hf] at h
    | true =>
      obtain rfl : [] = vs := by simpa [harity, hf] using h
      simp [OptionSpec.takesValue, harity]
  | single =>
    cases hv : r.value? o.id with
    | none => simp [harity, hv] at h
    | some v =>
      obtain rfl : [v] = vs := by simpa [harity, hv] using h
      simp [OptionSpec.takesValue, harity]
  | multiple =>
    cases hvs : r.values o.id with
    | nil => simp [harity, hvs] at h
    | cons v rest =>
      obtain rfl : v :: rest = vs := by simpa [harity, hvs] using h
      simp [OptionSpec.takesValue, harity]

theorem conforms_commandLine (hs : s.Distinct) : (r.commandLine s).Conforms s where
  known id hid := by
    obtain ⟨o, ho, rfl, -⟩ := r.has_commandLine_iff.1 hid
    exact ⟨o, ho, rfl⟩
  unvalued o ho hflag := by
    rw [r.values_commandLine hs ho]
    cases h : r.given? o with
    | none => rfl
    | some vs => exact (r.given?_eq_some h).1 hflag
  valued o ho htakes hhas := by
    rw [r.has_commandLine hs ho, Option.isSome_iff_exists] at hhas
    obtain ⟨vs, h⟩ := hhas
    rw [r.values_commandLine hs ho, h]
    exact (r.given?_eq_some h).2.1 htakes
  once o ho hsingle := by
    rw [r.values_commandLine hs ho]
    cases h : r.given? o with
    | none => exact Nat.zero_le 1
    | some vs => exact (r.given?_eq_some h).2.2 hsingle

end Request
end LaunchConfig
