import LaunchConfig.Proofs.Options.Lists
import Mathlib.Data.List.Find

/-!
# Options of a build among others

The options of a build may be added to a schema that has options already. They share no name
among themselves, so that it depends on the schema alone which of them is the first that cannot
be registered. Those before it stay. From then on the options of a build are always refused:
the first of them is in the schema itself, or clashes with what was there before.

Results:

* `refusal?_eq_none_iff_not_clashes`: with names that may be used only a clash is refused;
* `clashes_add_iff`, `refusal?_add`: options that are apart do not matter to each other;
* `registerAll_cases`: how far a list of options that are apart is registered;
* `clashes_head`: where it is not registered to its end, its first option clashes;
* `configureBuild_run`: what this means for the options of a build.
-/

namespace LaunchConfig
namespace Schema

variable {s s' : Schema} {o o' : OptionSpec} {os : List OptionSpec}

/-- The option has the id of an option that is there, or a long name in common with one. -/
def Clashes (s : Schema) (o : OptionSpec) : Prop :=
  o.id ∈ s.ids ∨ ∃ l ∈ o.longNames, ∃ o' ∈ s.options, l ∈ o'.longNames

instance (s : Schema) (o : OptionSpec) : Decidable (s.Clashes o) :=
  inferInstanceAs (Decidable (_ ∨ _))

/-! ## One option -/

theorem not_clashes_iff (hs : s.InStep) : ¬ s.Clashes o ↔ ∀ o' ∈ s.options, o'.Apart o := by
  rw [Clashes, not_or, hs.notMem_ids_iff]
  constructor
  · rintro ⟨hid, hlong⟩ o' ho'
    exact ⟨hid o' ho', fun l hl' hl => hlong ⟨l, hl, o', ho', hl'⟩⟩
  · rintro hapart
    refine ⟨fun o' ho' => (hapart o' ho').1, ?_⟩
    rintro ⟨l, hl, o', ho', hl'⟩
    exact (hapart o' ho').2 l hl' hl

/-- Of an option whose names may be used, only a clash is refused. -/
theorem refusal?_eq_none_iff_not_clashes (hs : s.InStep) (ho : o.Nameable) :
    s.refusal? o = none ↔ ¬ s.Clashes o := by
  rw [refusal?_eq_none_iff_apart hs, not_clashes_iff hs]
  exact and_iff_right ho

theorem clashes_add_iff (hs : s.InStep) (hnew : s.contains o.id = false) (h : o.Apart o') :
    (s.add o).Clashes o' ↔ s.Clashes o' := by
  rw [← not_iff_not, not_clashes_iff (hs.add hnew), not_clashes_iff hs, options_add hs hnew,
    List.forall_mem_append, List.forall_mem_singleton]
  exact and_iff_left h

theorem refusal?_add (hs : s.InStep) (hnew : s.contains o.id = false) (h : o.Apart o') :
    (s.add o).refusal? o' = s.refusal? o' := by
  have hid : (s.add o).contains o'.id = s.contains o'.id := by
    rw [contains_eq_isSome, contains_eq_isSome, get?_add, if_neg h.1.symm]
  have hlong : ∀ l ∈ o'.longNames, (s.add o).hasLong l = s.hasLong l := by
    intro l hl
    rw [Bool.eq_iff_iff, ← not_iff_not, Bool.not_eq_true, Bool.not_eq_true,
      hasLong_eq_false_iff (hs.add hnew), hasLong_eq_false_iff hs, options_add hs hnew,
      List.forall_mem_append, List.forall_mem_singleton]
    exact and_iff_left fun ho => h.2 l ho hl
  unfold refusal?
  rw [hid, List.find?_congr hlong]

/-! ## Lists of options -/

/-- A list of options that are apart is registered up to the first that clashes with what was
    there before. -/
theorem registerAll_cases (hs : s.Registered) (hname : ∀ o ∈ os, o.Nameable)
    (hapart : os.Pairwise OptionSpec.Apart) :
    ((∀ o ∈ os, ¬ s.Clashes o) ∧ (s.registerAll os).registered = os ∧
      (s.registerAll os).error? = none) ∨
    ∃ before o after, os = before ++ o :: after ∧ (∀ o' ∈ before, ¬ s.Clashes o') ∧
      s.Clashes o ∧ (s.registerAll os).registered = before ∧
      ∃ e, s.refusal? o = some e ∧ (s.registerAll os).error? = some e := by
  induction os generalizing s with
  | nil => exact .inl ⟨nofun, rfl, rfl⟩
  | cons o rest ih =>
    rw [List.forall_mem_cons] at hname
    rw [List.pairwise_cons] at hapart
    cases hr : s.refusal? o with
    | some e =>
      have hclash : s.Clashes o := by
        by_contra hnot
        rw [(refusal?_eq_none_iff_not_clashes hs.inStep hname.1).2 hnot] at hr
        cases hr
      refine .inr ⟨[], o, rest, rfl, nofun, hclash, ?_, e, hr, ?_⟩ <;>
        rw [registerAll, register_eq_error_iff.2 hr]
    | none =>
      have hnot := (refusal?_eq_none_iff_not_clashes hs.inStep hname.1).1 hr
      have hnew := contains_of_refusal? hr
      have hreg : s.register o = .ok (s.add o) := register_eq_ok_iff.2 ⟨hr, rfl⟩
      have hclashes : ∀ o' ∈ rest, ((s.add o).Clashes o' ↔ s.Clashes o') := fun o' ho' =>
        clashes_add_iff hs.inStep hnew (hapart.1 o' ho')
      rw [registerAll, hreg]
      rcases ih (hs.register hreg) hname.2 hapart.2 with
        ⟨hrest, hall, hnone⟩ | ⟨before, o', after, rfl, hbefore, ho', hall, e, he, herror⟩
      · refine .inl ⟨List.forall_mem_cons.2 ⟨hnot, fun o' ho' => ?_⟩, congrArg _ hall, hnone⟩
        exact mt (hclashes o' ho').2 (hrest o' ho')
      · have hmem : o' ∈ before ++ o' :: after := List.mem_append_cons_self
        refine .inr ⟨o :: before, o', after, rfl, List.forall_mem_cons.2 ⟨hnot, fun b hb => ?_⟩,
          (hclashes o' hmem).1 ho', congrArg _ hall, e, ?_, herror⟩
        · exact mt (hclashes b (List.mem_append_left _ hb)).2 (hbefore b hb)
        · rw [← refusal?_add hs.inStep hnew (hapart.1 o' hmem), he]

/-- What clashes is not registered, and nor is a list that it belongs to. -/
theorem error?_ne_none_of_clashes (hs : s.InStep) (ho : o ∈ os) (h : s.Clashes o) :
    (s.registerAll os).error? ≠ none := by
  intro hnone
  have hall := ((error?_registerAll_eq_none_iff hs os).1 hnone).1
  exact (not_clashes_iff hs).2 (hall o ho).2 h

/-! ## What stays -/

theorem Clashes.of_prefix (hs : s.InStep) (hs' : s'.InStep) (h : s.options <+: s'.options)
    (hclash : s.Clashes o) : s'.Clashes o := by
  by_contra hnot
  rw [not_clashes_iff hs'] at hnot
  exact (not_clashes_iff hs).2 (fun o' ho' => hnot o' (h.subset ho')) hclash

theorem Clashes.run (hs : s.Registered) (h : s.Clashes o) (steps : List Step) :
    (run s steps).Clashes o := by
  refine h.of_prefix hs.inStep (registered_run hs steps).inStep ?_
  rw [options_run hs]
  exact List.prefix_append _ _

theorem clashes_of_mem (hs : s.InStep) (ho : o ∈ s.options) : s.Clashes o :=
  .inl (hs.map_id_options ▸ List.mem_map_of_mem ho)

/-- If a list of options is not registered to its end, its first option clashes from then on: it
    is there, or it clashed before. -/
theorem clashes_head (hs : s.Registered) (hname : ∀ o ∈ os, o.Nameable)
    (hapart : os.Pairwise OptionSpec.Apart) (ho : os.head? = some o)
    (h : (s.registerAll os).error? ≠ none) : (s.registerAll os).schema.Clashes o := by
  have hoptions := options_registerAll hs.inStep os
  have hreached := (registered_registerAll hs os).inStep
  rcases registerAll_cases hs hname hapart with
    ⟨-, -, hnone⟩ | ⟨before, o', after, rfl, -, hclash, hall, -⟩
  · exact absurd hnone h
  · rw [hall] at hoptions
    cases before with
    | nil =>
      obtain rfl := Option.some.inj ho
      exact hclash.of_prefix hs.inStep hreached (hoptions ▸ List.prefix_append _ _)
    | cons b before =>
      obtain rfl := Option.some.inj ho
      have hb : b ∈ s.options ++ b :: before := List.mem_append_cons_self
      exact clashes_of_mem hreached (hoptions ▸ hb)

/-! ## The options of a build -/

theorem buildOptions_registrable :
    (∀ o ∈ buildOptions .standard, o.Nameable) ∧
      (buildOptions .standard).Pairwise OptionSpec.Apart := by
  have hall : (registerAll ∅ (buildOptions .standard)).registered = buildOptions .standard := by
    have hoptions := options_registerAll inStep_empty (buildOptions .standard)
    exact hoptions.symm.trans registered_buildSchema
  obtain ⟨hname, hapart⟩ := (error?_registerAll_eq_none_iff inStep_empty _).1
    ((error?_eq_none_iff ∅ _).2 hall)
  exact ⟨fun o ho => (hname o ho).1, hapart⟩

/-- **What the options of a build come to among others.** They are registered exactly if none of
    them clashes with an option that is there, and then stand after those, in their order. If
    not, those before the first that clashes are registered, and why that one is refused depends
    on the options that were there alone. The schema is consistent nonetheless, and from then on
    neither the options of a build nor the logging options can be registered, whatever else is
    registered before. -/
theorem configureBuild_run (steps : List Step) {s : Schema} (hs : run ∅ steps = s)
    {r : Registration} (hr : configureBuild .standard s = r) :
    (buildOptions .standard).map (·.id)
      = ["q", "i", "d", "no-color", "u", "C", "m", "s", "S", "t", "r", "n", "p", "g", "I", "c",
        "b", "D", "P", "e", "A", "a", "no-opt", "x", "profile"] ∧
    (r.error? = none ↔ ∀ o ∈ buildOptions .standard, ¬ s.Clashes o) ∧
    (r.error? = none → r.schema.options = s.options ++ buildOptions .standard) ∧
    ∀ e, r.error? = some e → ∃ before o after, buildOptions .standard = before ++ o :: after ∧
      (∀ o' ∈ before, ¬ s.Clashes o') ∧ s.Clashes o ∧ s.refusal? o = some e ∧
      r.schema.options = s.options ++ before ∧ r.schema.Consistent (s.options ++ before) ∧
      ∀ later : List Step,
        (configureBuild .standard (run r.schema later)).error? ≠ none ∧
        (configureLogging .standard (run r.schema later)).error? ≠ none := by
  subst hs hr
  have hs : (run ∅ steps).Registered := registered_run .empty steps
  obtain ⟨hname, hapart⟩ := buildOptions_registrable
  have hoptions := options_registerAll hs.inStep (buildOptions .standard)
  have hreached := registered_registerAll hs (buildOptions .standard)
  refine ⟨by decide, ⟨fun hnone o ho => ?_, fun hnot => ?_⟩, fun hnone => ?_, fun e he => ?_⟩
  · exact fun hclash => error?_ne_none_of_clashes hs.inStep ho hclash hnone
  · rcases registerAll_cases hs hname hapart with
      ⟨-, -, hnone⟩ | ⟨before, o, after, hos, -, hclash, -⟩
    · exact hnone
    · exact absurd hclash (hnot o (hos ▸ List.mem_append_cons_self))
  · rw [(error?_eq_none_iff _ _).1 hnone] at hoptions
    exact hoptions
  · rcases registerAll_cases hs hname hapart with
      ⟨-, -, hnone⟩ | ⟨before, o, after, hos, hbefore, hclash, hall, e', he', herror⟩
    · cases he.symm.trans hnone
    · obtain rfl := Option.some.inj (herror.symm.trans he)
      rw [hall] at hoptions
      have hquiet : (configureBuild .standard (run ∅ steps)).schema.Clashes LoggingOption.quiet :=
        clashes_head hs hname hapart rfl (by rw [herror]; nofun)
      refine ⟨before, o, after, hos, hbefore, hclash, he', hoptions,
        hoptions ▸ hreached.consistent, fun later => ?_⟩
      have hlater := (registered_run hreached later).inStep
      exact ⟨error?_ne_none_of_clashes hlater List.mem_cons_self (hquiet.run hreached later),
        error?_ne_none_of_clashes hlater List.mem_cons_self (hquiet.run hreached later)⟩

/-- An option with the long name `tasks` keeps the deprecated flag for these tasks from being
    registered, and more options after it. One that is called otherwise does not. -/
theorem configureBuild_run_tasks :
    (configureBuild .standard (run ∅ [.register { id := "z", long? := some "tasks" }])).error?
      = some (.duplicateLong "tasks") ∧
    (∃ before o after, buildOptions .standard = before ++ o :: after ∧
      (run ∅ [.register { id := "z", long? := some "tasks" }]).Clashes o ∧
      (configureBuild .standard
          (run ∅ [.register { id := "z", long? := some "tasks" }])).schema.options
        = { id := "z", long? := some "tasks" } :: before ∧
      (configureLogging .standard (run (configureBuild .standard
          (run ∅ [.register { id := "z", long? := some "tasks" }])).schema
            [.register { id := "y" }])).error? ≠ none) ∧
    (configureBuild .standard (run ∅ [.register { id := "z", long? := some "zed" }])).schema.options
      = { id := "z", long? := some "zed" } :: buildOptions .standard := by
  have herror : (configureBuild .standard
      (run ∅ [.register { id := "z", long? := some "tasks" }])).error?
        = some (.duplicateLong "tasks") := by decide +kernel
  obtain ⟨-, -, -, hfail⟩ :=
    configureBuild_run [.register { id := "z", long? := some "tasks" }] rfl rfl
  obtain ⟨before, o, after, hos, -, hclash, -, hoptions, -, hlater⟩ := hfail _ herror
  obtain ⟨-, hiff, hok, -⟩ :=
    configureBuild_run [.register { id := "z", long? := some "zed" }] rfl rfl
  exact ⟨herror, ⟨before, o, after, hos, hclash, hoptions, (hlater _).2⟩,
    hok (hiff.2 (by decide +kernel))⟩

end Schema
end LaunchConfig
