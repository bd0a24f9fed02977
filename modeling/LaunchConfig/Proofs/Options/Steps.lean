import LaunchConfig.Conversion.BuildOption
import LaunchConfig.Proofs.Options.Registered
import Mathlib.Data.List.Basic

/-!
# Schemas after any calls

A schema is made by calls that register one option or the options of a conversion. A call
may fail, and then keeps what it has registered before, and the next call goes on from
there. Whatever the calls, their failures included, the ids and the look-up by id stay in
step, and a name has one option.

Results:

* `options_run`: the options are those that were registered, in order;
* `InStep.map_id_options`, `InStep.size_eq`: none of them is skipped or counted twice;
* `get?_of_register`: what registering an option does to the look-up;
* `run_consistent`: what holds after any calls, and what one more option needs.
-/

namespace LaunchConfig
namespace Schema

/-- A call that registers options. -/
inductive Step where
  | register (o : OptionSpec)
  | configureBuild (source : LoggingSource)
  | configureLogging (source : LoggingSource)

/-- What the call comes to. -/
def Step.registration (s : Schema) : Step → Registration
  | register o =>
    match s.register o with
    | .ok s' => ⟨s', [o], none⟩
    | .error e => ⟨s, [], some e⟩
  | configureBuild source => LaunchConfig.configureBuild source s
  | configureLogging source => LaunchConfig.configureLogging source s

/-- The options that the call is to register. -/
def Step.options : Step → List OptionSpec
  | register o => [o]
  | configureBuild source => buildOptions source
  | configureLogging source => source.options

/-- The schema after all calls. -/
def run (s : Schema) (steps : List Step) : Schema :=
  steps.foldl (fun s step => (step.registration s).schema) s

/-- The options that the calls register, in order. -/
def registeredBy (s : Schema) : List Step → List OptionSpec
  | [] => []
  | step :: steps =>
    (step.registration s).registered ++ registeredBy (step.registration s).schema steps

variable {s s' : Schema} {o : OptionSpec}

/-! ## One call -/

theorem registration_eq (s : Schema) (step : Step) :
    step.registration s = s.registerAll step.options := by
  cases step with
  | register o => cases h : s.register o <;> simp [Step.registration, Step.options, registerAll, h]
  | configureBuild source => rfl
  | configureLogging source => rfl

theorem registration_register_of_ok (h : s.register o = .ok s') :
    (Step.registration s (.register o)).schema = s' := by
  simp [Step.registration, h]

theorem registration_register_of_error {e : SchemaError} (h : s.register o = .error e) :
    (Step.registration s (.register o)).schema = s := by
  simp [Step.registration, h]

/-! ## All calls -/

theorem run_cons (s : Schema) (step : Step) (steps : List Step) :
    run s (step :: steps) = run (step.registration s).schema steps := rfl

theorem run_concat (s : Schema) (steps : List Step) (step : Step) :
    run s (steps ++ [step]) = (step.registration (run s steps)).schema := by
  rw [run, List.foldl_append]
  rfl

theorem registered_step (hs : s.Registered) (step : Step) :
    (step.registration s).schema.Registered := by
  rw [registration_eq]
  exact registered_registerAll hs step.options

theorem registered_run (hs : s.Registered) (steps : List Step) : (run s steps).Registered := by
  induction steps generalizing s with
  | nil => exact hs
  | cons step steps ih => exact ih (registered_step hs step)

/-- The options after all calls are those before, and then those that were registered. -/
theorem options_run (hs : s.Registered) (steps : List Step) :
    (run s steps).options = s.options ++ registeredBy s steps := by
  induction steps generalizing s with
  | nil => exact (List.append_nil _).symm
  | cons step steps ih =>
    rw [run_cons, ih (registered_step hs step), registeredBy, ← List.append_assoc,
      registration_eq, options_registerAll hs.inStep]

/-! ## Ids and options -/

/-- No id in order is skipped. -/
theorem InStep.map_id_options (hs : s.InStep) : s.options.map (·.id) = s.ids := by
  have hfound : ∀ id ∈ s.ids, (s.get? id).map (·.id) = some id := by
    intro id hid
    rw [hs.mem_ids_iff, contains_eq_isSome, Option.isSome_iff_exists] at hid
    obtain ⟨o, ho⟩ := hid
    rw [ho, Option.map_some, hs.id_eq ho]
  rw [options, List.map_filterMap, List.filterMap_congr hfound, List.filterMap_some]

/-- There are as many options under their ids as there are in order. -/
theorem InStep.size_eq (hs : s.InStep) : s.size = s.options.length := by
  calc s.size = s.ids.length := s.byId.size_eq_length hs.nodup fun _ => hs.mem_ids_iff
    _ = (s.options.map (·.id)).length := by rw [hs.map_id_options]
    _ = s.options.length := List.length_map _

theorem InStep.notMem_ids_iff (hs : s.InStep) {id : String} :
    id ∉ s.ids ↔ ∀ o ∈ s.options, o.id ≠ id := by
  rw [← contains_eq_false_iff hs, hs.mem_ids_iff, Bool.not_eq_true]

/-! ## One more option -/

/-- The new option is found under its id, and all else as before. -/
theorem get?_of_register (h : s.register o = .ok s') (id : String) :
    s'.get? id = if id = o.id then some o else s.get? id := by
  obtain ⟨-, rfl⟩ := register_eq_ok_iff.1 h
  exact get?_add s o id

theorem exists_register_iff (hs : s.InStep) :
    (∃ s', s.register o = .ok s') ↔
      o.id ≠ "" ∧ (∀ name ∈ o.id :: o.longNames, name ∉ reservedNames) ∧ o.id ∉ s.ids ∧
        ∀ l ∈ o.longNames, ∀ o' ∈ s.options, l ∉ o'.longNames := by
  rw [hs.notMem_ids_iff, ← refusal?_eq_none_iff hs]
  constructor
  · rintro ⟨s', h⟩
    exact (register_eq_ok_iff.1 h).1
  · intro h
    exact ⟨s.add o, register_eq_ok_iff.2 ⟨h, rfl⟩⟩

/-! ## After any calls -/

/-- The ids in order, the options under their ids and the options registered one after the
    other say the same, and no name is empty, reserved or shared. -/
structure Consistent (s : Schema) (registered : List OptionSpec) : Prop where
  ids_nodup : s.ids.Nodup
  mem_ids_iff (id : String) : id ∈ s.ids ↔ id ∈ s.byId.keys
  id_eq (id : String) (o : OptionSpec) : s.get? id = some o → o.id = id
  options_eq : s.options = registered
  options_nodup : s.options.Nodup
  mem_options_iff (o : OptionSpec) : o ∈ s.options ↔ s.get? o.id = some o
  size_eq : s.size = registered.length
  nonempty : "" ∉ s.ids
  unreserved : ∀ o ∈ s.options, ∀ name ∈ o.id :: o.longNames,
    name ∉ ["h", "help", "V", "version"]
  long_unique : ∀ o ∈ s.options, ∀ o' ∈ s.options, ∀ l ∈ o.longNames, l ∈ o'.longNames → o = o'

theorem Registered.consistent (hs : s.Registered) : s.Consistent s.options where
  ids_nodup := hs.inStep.nodup
  mem_ids_iff id := by
    rw [hs.inStep.mem_ids_iff, Dict.mem_keys_iff]
    rfl
  id_eq _ _ := hs.inStep.id_eq
  options_eq := rfl
  options_nodup := hs.distinct.ids.imp fun hne heq => hne (congrArg OptionSpec.id heq)
  mem_options_iff _ := hs.inStep.mem_options_iff
  size_eq := hs.inStep.size_eq
  nonempty := by
    intro h
    rw [← hs.inStep.map_id_options] at h
    obtain ⟨o, ho, hid⟩ := List.mem_map.1 h
    exact hs.distinct.nonempty o ho hid
  unreserved := hs.distinct.unreserved
  long_unique _ ho _ ho' _ := hs.distinct.eq_of_long ho ho'

/-- **What holds after any calls.** After any sequence of calls, successful or not, the
    schema is consistent, and its options are those that were registered. An option is
    registered exactly if its id is not empty, none of its names is reserved, its id is
    new and so are its long names. It then stands last, and the others are found as
    before. If it is refused, the schema stays as it was. -/
theorem run_consistent (steps : List Step) :
    (run ∅ steps).Consistent (registeredBy ∅ steps) ∧
    ∀ o : OptionSpec,
      ((∃ s', (run ∅ steps).register o = .ok s') ↔
        o.id ≠ "" ∧ (∀ name ∈ o.id :: o.longNames, name ∉ ["h", "help", "V", "version"]) ∧
          o.id ∉ (run ∅ steps).ids ∧
          ∀ l ∈ o.longNames, ∀ o' ∈ (run ∅ steps).options, l ∉ o'.longNames) ∧
      (∀ s', (run ∅ steps).register o = .ok s' →
        run ∅ (steps ++ [.register o]) = s' ∧ s'.options = (run ∅ steps).options ++ [o] ∧
          s'.get? o.id = some o ∧ ∀ id, id ≠ o.id → s'.get? id = (run ∅ steps).get? id) ∧
      ∀ e, (run ∅ steps).register o = .error e → run ∅ (steps ++ [.register o]) = run ∅ steps := by
  have hreached : (run ∅ steps).Registered := registered_run .empty steps
  have hoptions : (run ∅ steps).options = registeredBy ∅ steps := options_run .empty steps
  refine ⟨hoptions ▸ hreached.consistent, fun o => ⟨exists_register_iff hreached.inStep, ?_, ?_⟩⟩
  · intro s' h
    refine ⟨?_, ?_, ?_, fun id hid => ?_⟩
    · rw [run_concat, registration_register_of_ok h]
    · obtain ⟨hnone, rfl⟩ := register_eq_ok_iff.1 h
      exact options_add hreached.inStep (contains_of_refusal? hnone)
    · rw [get?_of_register h, if_pos rfl]
    · rw [get?_of_register h, if_neg hid]
  · intro e h
    rw [run_concat, registration_register_of_error h]

/-- Two calls fail at options that are there already, the first of them after it has
    registered another one. Then one more option is registered, and one is refused because
    its long name is taken. -/
theorem run_consistent_clash :
    ∃ s', (run ∅ [.register LoggingOption.info, .configureBuild .standard,
        .configureLogging .standard]).register BuildOption.profile = .ok s' ∧
      s'.options = [LoggingOption.info, LoggingOption.quiet, BuildOption.profile] ∧
      s'.get? "i" = some LoggingOption.info ∧
      run ∅ [.register LoggingOption.info, .configureBuild .standard, .configureLogging .standard,
          .register { id := "z", long? := some "info" }]
        = run ∅ [.register LoggingOption.info, .configureBuild .standard,
          .configureLogging .standard] := by
  obtain ⟨-, hone⟩ := run_consistent [.register LoggingOption.info, .configureBuild .standard,
    .configureLogging .standard]
  obtain ⟨-, hoptions, -, hothers⟩ := (hone BuildOption.profile).2.1 _ rfl
  have hrefused := (hone { id := "z", long? := some "info" }).2.2 _ rfl
  exact ⟨_, rfl, hoptions, hothers "i" (by decide), hrefused⟩

end Schema
end LaunchConfig
