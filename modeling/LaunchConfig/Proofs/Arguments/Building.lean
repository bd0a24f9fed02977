import LaunchConfig.Arguments.CommandLine
import Mathlib.Data.List.Dedup

/-!
# What a command line is built of

A command line is built in steps. Each question about it is answered by the steps alone:
an option is present if a step names it, its values are those of the steps that name it,
and the extra arguments are those of all steps, in the order of the steps. So steps of
different options may be taken in either order.

`p ++ q` goes on from `p` with the steps that build `q`: it has the options of both, with
the values of `p` before those of `q`.

Results:

* `has_applyAll`, `values_applyAll`, `extra_applyAll`: what a run of steps does to the
  questions;
* `optionCount_eq_length`: each option that is present is counted once;
* `apply_comm`, `withValues_append`: steps in another order, and a step in two;
* `answers_build`: what a command line that is built in steps answers;
* `has_append`, `values_append`: the questions about `p ++ q`.
-/

namespace LaunchConfig
namespace CommandLine

/-! ## What a step says -/

namespace Step

/-- The option that the step makes present, if it is not about extra arguments. -/
def id? : Step → Option String
  | option j | values j _ => some j
  | extra _ => none

/-- Does the step make the option present? -/
def names (id : String) : Step → Bool
  | option j | values j _ => decide (id = j)
  | extra _ => false

/-- The values that the step gives to the option. -/
def valuesFor (id : String) : Step → List String
  | values j vs => if id = j then vs else []
  | option _ | extra _ => []

/-- The extra arguments that the step gives. -/
def extras : Step → List String
  | extra args => args
  | option _ | values _ _ => []

variable {s : Step} {id : String}

theorem names_iff : s.names id = true ↔ s.id? = some id := by
  cases s <;> simp [names, id?, eq_comm]

theorem valuesFor_eq_nil (h : s.id? ≠ some id) : s.valuesFor id = [] := by
  cases s with
  | values j vs => exact if_neg fun hj => h (congrArg some hj.symm)
  | option _ | extra _ => rfl

theorem extras_eq_nil (h : s.id? ≠ none) : s.extras = [] := by
  cases s with
  | option _ | values _ _ => rfl
  | extra _ => exact absurd rfl h

end Step

/-! ## One step -/

theorem has_apply (p : CommandLine) (s : Step) (id : String) :
    (p.apply s).has id = (p.has id || s.names id) := by
  cases s with
  | option j => rw [apply, has_withOption, Bool.or_comm]; rfl
  | values j vs => rw [apply, has_withValues, Bool.or_comm]; rfl
  | extra args => rw [apply, has_withExtra, Step.names, Bool.or_false]

theorem values_apply (p : CommandLine) (s : Step) (id : String) :
    (p.apply s).values id = p.values id ++ s.valuesFor id := by
  cases s with
  | option j => rw [apply, values_withOption, Step.valuesFor, List.append_nil]
  | values j vs => exact values_withValues p j vs id
  | extra args => rw [apply, values_withExtra, Step.valuesFor, List.append_nil]

theorem extra_apply (p : CommandLine) (s : Step) : (p.apply s).extra = p.extra ++ s.extras := by
  cases s with
  | option j => rw [apply, extra_withOption, Step.extras, List.append_nil]
  | values j vs => rw [apply, extra_withValues, Step.extras, List.append_nil]
  | extra args => rfl

/-! ## All steps -/

/-- Go on building from `p`. -/
def applyAll (p : CommandLine) (steps : List Step) : CommandLine := steps.foldl apply p

theorem applyAll_cons (p : CommandLine) (s : Step) (steps : List Step) :
    p.applyAll (s :: steps) = (p.apply s).applyAll steps := rfl

theorem build_eq (steps : List Step) : build steps = (∅ : CommandLine).applyAll steps := rfl

/-- An option is present if it was, or if a step names it. -/
theorem has_applyAll (p : CommandLine) (steps : List Step) (id : String) :
    (p.applyAll steps).has id = (p.has id || steps.any (·.names id)) := by
  induction steps generalizing p with
  | nil => rw [List.any_nil, Bool.or_false]; rfl
  | cons s steps ih => rw [applyAll_cons, ih, has_apply, List.any_cons, Bool.or_assoc]

/-- The values of an option are those it had, and then those of each step. -/
theorem values_applyAll (p : CommandLine) (steps : List Step) (id : String) :
    (p.applyAll steps).values id = p.values id ++ steps.flatMap (·.valuesFor id) := by
  induction steps generalizing p with
  | nil => rw [List.flatMap_nil, List.append_nil]; rfl
  | cons s steps ih => rw [applyAll_cons, ih, values_apply, List.flatMap_cons, List.append_assoc]

theorem extra_applyAll (p : CommandLine) (steps : List Step) :
    (p.applyAll steps).extra = p.extra ++ steps.flatMap Step.extras := by
  induction steps generalizing p with
  | nil => rw [List.flatMap_nil, List.append_nil]; rfl
  | cons s steps ih => rw [applyAll_cons, ih, extra_apply, List.flatMap_cons, List.append_assoc]

theorem applyAll_append (p : CommandLine) (steps later : List Step) :
    p.applyAll (steps ++ later) = (p.applyAll steps).applyAll later :=
  List.foldl_append

theorem has_build_iff {steps : List Step} {id : String} :
    (build steps).has id = true ↔ ∃ s ∈ steps, s.id? = some id := by
  rw [build_eq, has_applyAll, has_empty, Bool.false_or, List.any_eq_true]
  simp only [Step.names_iff]

theorem values_build (steps : List Step) (id : String) :
    (build steps).values id = steps.flatMap (·.valuesFor id) := by
  rw [build_eq, values_applyAll, values_empty, List.nil_append]

theorem extra_build (steps : List Step) : (build steps).extra = steps.flatMap Step.extras := by
  rw [build_eq, extra_applyAll, extra_empty, List.nil_append]

/-- Each option that is present is counted once. -/
theorem optionCount_eq_length {p : CommandLine} {ids : List String} (hnodup : ids.Nodup)
    (hids : ∀ id, id ∈ ids ↔ p.has id = true) : p.optionCount = ids.length :=
  p.options.size_eq_length hnodup hids

/-! ## Steps in another order -/

/-- Steps of different options, or of an option and of extra arguments, may be exchanged. -/
theorem apply_comm (p : CommandLine) {s s' : Step} (h : s.id? ≠ s'.id?) :
    (p.apply s).apply s' = (p.apply s').apply s := by
  refine ext_values (fun id => ?_) (fun id => ?_) ?_
  · rw [has_apply, has_apply, has_apply, has_apply, Bool.or_right_comm]
  · simp only [values_apply, List.append_assoc]
    -- at most one of the two gives values to the option
    by_cases hs : s.id? = some id
    · have hs' : s'.id? ≠ some id := fun hs' => h (hs.trans hs'.symm)
      rw [Step.valuesFor_eq_nil hs', List.append_nil, List.nil_append]
    · rw [Step.valuesFor_eq_nil hs, List.append_nil, List.nil_append]
  · simp only [extra_apply, List.append_assoc]
    by_cases hs : s.id? = none
    · have hs' : s'.id? ≠ none := fun hs' => h (hs.trans hs'.symm)
      rw [Step.extras_eq_nil hs', List.append_nil, List.nil_append]
    · rw [Step.extras_eq_nil hs, List.append_nil, List.nil_append]

theorem withValues_append (p : CommandLine) (id : String) (vs ws : List String) :
    p.withValues id (vs ++ ws) = (p.withValues id vs).withValues id ws := by
  refine ext_values (fun j => ?_) (fun j => ?_) rfl
  · rw [has_withValues, has_withValues, has_withValues, Bool.or_self_left]
  · rw [values_withValues, values_withValues, values_withValues, List.append_assoc]
    by_cases hj : j = id <;> simp [hj]

/-- **What a command line that is built in steps answers.** An option is present exactly if a
    step names it, be it without values. Its values are those that the steps give to it, in
    order, and of these the last is its value. Each option is counted once, and the extra
    arguments are those of all steps, in order. Two steps may be exchanged if they name
    different options, or if only one of them is about extra arguments, and values may be given
    in two steps rather than one. -/
theorem answers_build :
    (∀ (steps : List Step) (id : String),
      (build steps).values id = steps.flatMap (·.valuesFor id) ∧
      ((build steps).has id = true ↔ ∃ s ∈ steps, s.id? = some id) ∧
      (build steps).value? id = (steps.flatMap (·.valuesFor id)).getLast?) ∧
    (∀ steps : List Step,
      (build steps).optionCount = (steps.filterMap Step.id?).dedup.length ∧
      (build steps).extra = steps.flatMap Step.extras) ∧
    (∀ (before after : List Step) (s s' : Step), s.id? ≠ s'.id? →
      build (before ++ s :: s' :: after) = build (before ++ s' :: s :: after)) ∧
    ∀ (before after : List Step) (id : String) (vs ws : List String),
      build (before ++ .values id (vs ++ ws) :: after)
        = build (before ++ .values id vs :: .values id ws :: after) := by
  refine ⟨fun steps id => ⟨values_build steps id, has_build_iff, ?_⟩,
    fun steps => ⟨?_, extra_build steps⟩, fun before after s s' h => ?_,
    fun before after id vs ws => ?_⟩
  · rw [value?, values_build]
  · refine optionCount_eq_length (List.nodup_dedup _) fun id => ?_
    rw [List.mem_dedup, List.mem_filterMap, has_build_iff]
  · simp only [build_eq, applyAll_append, applyAll_cons, apply_comm _ h]
  · simp only [build_eq, applyAll_append, applyAll_cons, apply, withValues_append]

/-- An option that is named again without values keeps those it has and is counted once, and an
    option that is given no values is present. The step between may come first. -/
theorem answers_build_again :
    (build [.values "D" ["a=1"], .extra ["build"], .option "D", .values "D" ["b=2"],
      .values "I" []]).values "D" = ["a=1", "b=2"] ∧
    (build [.values "D" ["a=1"], .extra ["build"], .option "D", .values "D" ["b=2"],
      .values "I" []]).has "I" = true ∧
    (build [.values "D" ["a=1"], .extra ["build"], .option "D", .values "D" ["b=2"],
      .values "I" []]).optionCount = 2 ∧
    (Step.values "D" ["a=1"]).id? ≠ (Step.extra ["build"]).id? ∧
    build ([] ++ .values "D" ["a=1"] :: .extra ["build"] :: [.option "D"])
      = build ([] ++ .extra ["build"] :: .values "D" ["a=1"] :: [.option "D"]) := by
  obtain ⟨hquestions, hall, hexchanged, -⟩ := answers_build
  have hne : (Step.values "D" ["a=1"]).id? ≠ (Step.extra ["build"]).id? := nofun
  refine ⟨?_, ?_, ?_, hne, hexchanged _ _ _ _ hne⟩
  · rw [(hquestions _ _).1]
    decide
  · exact (hquestions _ _).2.1.2 ⟨.values "I" [], by decide, rfl⟩
  · rw [(hall _).1]
    decide

/-! ## Two command lines in one -/

/-- Steps that build the command line: one for each option, and one for the extra
    arguments. -/
def steps (p : CommandLine) : List Step :=
  p.options.entries.map (fun e => .values e.1 e.2) ++ [.extra p.extra]

/-- The options of both command lines, each with the values of the first and then those of
    the second, and the extra arguments of the first and then those of the second. -/
def append (p q : CommandLine) : CommandLine := p.applyAll q.steps

instance : Append CommandLine := ⟨append⟩

theorem append_eq (p q : CommandLine) : p ++ q = p.applyAll q.steps := rfl

theorem any_names_steps (p : CommandLine) (id : String) :
    p.steps.any (·.names id) = p.has id := by
  have hentries : (p.options.entries.any fun e => decide (id = e.1)) = p.has id := by
    rw [Bool.eq_iff_iff, has, ← Dict.mem_keys_iff, Dict.keys, List.any_eq_true, List.mem_map]
    simp only [decide_eq_true_eq, eq_comm (a := id)]
  rw [steps, List.any_append, List.any_map, ← hentries]
  exact Bool.or_false _

theorem flatMap_entries (id : String) {l : List (String × List String)}
    (hl : l.Pairwise fun a b => a.1 < b.1) :
    (l.flatMap fun e => if id = e.1 then e.2 else []) = (Dict.lookup id l).getD [] := by
  induction l with
  | nil => rfl
  | cons e rest ih =>
    obtain ⟨k, vs⟩ := e
    rw [List.pairwise_cons] at hl
    rw [List.flatMap_cons, ih hl.2, Dict.lookup]
    by_cases hk : id = k
    · have hrest : Dict.lookup id rest = none := by
        rw [hk]
        exact Dict.lookup_eq_none_of_lt hl.1
      rw [hrest, if_pos hk, if_pos hk]
      exact List.append_nil vs
    · rw [if_neg hk, if_neg hk, List.nil_append]

theorem flatMap_valuesFor_steps (p : CommandLine) (id : String) :
    p.steps.flatMap (·.valuesFor id) = p.values id := by
  rw [steps, List.flatMap_append, List.flatMap_map]
  have hvalues : (p.options.entries.flatMap fun e => if id = e.1 then e.2 else []) = p.values id :=
    flatMap_entries id p.options.sorted
  rw [← hvalues]
  exact List.append_nil _

theorem has_append (p q : CommandLine) (id : String) :
    (p ++ q).has id = (p.has id || q.has id) := by
  rw [append_eq, has_applyAll, any_names_steps]

theorem values_append (p q : CommandLine) (id : String) :
    (p ++ q).values id = p.values id ++ q.values id := by
  rw [append_eq, values_applyAll, flatMap_valuesFor_steps]

/-- The last value is that of the second command line, if it has one. -/
theorem value?_append (p q : CommandLine) (id : String) :
    (p ++ q).value? id = (q.value? id).or (p.value? id) := by
  rw [value?, values_append, List.getLast?_append]
  rfl

end CommandLine
end LaunchConfig
