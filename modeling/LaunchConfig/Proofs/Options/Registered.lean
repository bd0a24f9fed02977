import LaunchConfig.Options.Schema
import Mathlib.Data.List.Basic

/-!
# Schemas that registration reaches

`Schema.Registered` holds of the schemas that are reached from the empty one by
options being registered. In such a schema the ids in order and the options under their
ids are in step, no two options share an id or a long name, and no name is reserved.

Results:

* `Registered.inStep`: registration keeps the ids and the options in step;
* `options_add`, `options_registerAll`: new options stand after the others;
* `refusal?_eq_none_iff`: what makes an option registrable;
* `Registered.distinct`: registration keeps the names of a schema distinct;
* `registered_registerAll`, `registered_ofOptions`: so do lists of options;
* `Distinct.eq_of_id`, `Distinct.eq_of_long`: an id or a long name has one option.
-/

namespace LaunchConfig

namespace Schema

variable {s s' : Schema} {o o' : OptionSpec}

/-- Reached from the empty schema by registering options. -/
inductive Registered : Schema → Prop
  | empty : Registered ∅
  | register {s s' : Schema} {o : OptionSpec} :
      Registered s → s.register o = .ok s' → Registered s'

/-- No name has two options, and none is reserved or empty. -/
structure Distinct (s : Schema) : Prop where
  ids : s.options.Pairwise fun a b => a.id ≠ b.id
  longs : s.options.Pairwise fun a b => ∀ l ∈ a.longNames, l ∉ b.longNames
  unreserved : ∀ o ∈ s.options, ∀ name ∈ o.id :: o.longNames, name ∉ reservedNames
  nonempty : ∀ o ∈ s.options, o.id ≠ ""

/-! ## The ids in order and the options under their ids -/

/-- The ids in order are those that have an option, each once, and an option is found
    under its own id. -/
structure InStep (s : Schema) : Prop where
  nodup : s.ids.Nodup
  mem_ids_iff {id : String} : id ∈ s.ids ↔ s.contains id = true
  id_eq {id : String} {o : OptionSpec} : s.get? id = some o → o.id = id

theorem inStep_empty : InStep ∅ where
  nodup := .nil
  mem_ids_iff := ⟨fun h => absurd h List.not_mem_nil, fun h => by cases h⟩
  id_eq h := by cases h

/-- In a schema that is in step the options in order are those that are found. -/
theorem InStep.mem_options_iff (hs : s.InStep) : o ∈ s.options ↔ s.get? o.id = some o := by
  rw [options, List.mem_filterMap]
  constructor
  · rintro ⟨id, -, hid⟩
    rwa [hs.id_eq hid]
  · intro h
    exact ⟨o.id, hs.mem_ids_iff.2 (by rw [contains_eq_isSome, h]; rfl), h⟩

theorem InStep.notMem_ids (hs : s.InStep) (h : s.contains o.id = false) : o.id ∉ s.ids := by
  rw [hs.mem_ids_iff, h]
  exact Bool.false_ne_true

theorem InStep.add (hs : s.InStep) (h : s.contains o.id = false) : (s.add o).InStep where
  nodup := by
    refine List.nodup_append.2 ⟨hs.nodup, List.pairwise_singleton _ _, fun id hid id' hid' => ?_⟩
    obtain rfl := List.mem_singleton.1 hid'
    rintro rfl
    exact hs.notMem_ids h hid
  mem_ids_iff {id} := by
    have hids : id ∈ (s.add o).ids ↔ id ∈ s.ids ∨ id = o.id := by simp [Schema.add]
    rw [hids, hs.mem_ids_iff, contains_eq_isSome, contains_eq_isSome, get?_add]
    by_cases hid : id = o.id <;> simp [hid]
  id_eq {id o'} h' := by
    rw [get?_add] at h'
    by_cases hid : id = o.id
    · rw [if_pos hid] at h'
      rw [← Option.some.inj h', hid]
    · rw [if_neg hid] at h'
      exact hs.id_eq h'

theorem InStep.register (hs : s.InStep) (h : s.register o = .ok s') : s'.InStep := by
  obtain ⟨hnone, rfl⟩ := register_eq_ok_iff.1 h
  exact hs.add (contains_of_refusal? hnone)

/-- An option under a new id stands last. -/
theorem options_add (hs : s.InStep) (h : s.contains o.id = false) :
    (s.add o).options = s.options ++ [o] := by
  -- None of the old ids is the new one, so they are looked up as before.
  have hold : s.ids.filterMap (s.add o).get? = s.options := by
    refine List.filterMap_congr fun id hid => ?_
    have hne : id ≠ o.id := fun heq => hs.notMem_ids h (heq ▸ hid)
    rw [get?_add, if_neg hne]
  have hnew : [o.id].filterMap (s.add o).get? = [o] := by
    simp [get?_add]
  have hids : (s.add o).ids = s.ids ++ [o.id] := rfl
  rw [options, hids, List.filterMap_append, hold, hnew]

theorem options_registerAll (hs : s.InStep) (options : List OptionSpec) :
    (s.registerAll options).schema.options
      = s.options ++ (s.registerAll options).registered := by
  induction options generalizing s with
  | nil => simp [registerAll]
  | cons o rest ih =>
    unfold registerAll
    split
    · simp
    · next s' h =>
      have hs' := hs.register h
      obtain ⟨hnone, rfl⟩ := register_eq_ok_iff.1 h
      simp [ih hs', options_add hs (contains_of_refusal? hnone)]

/-! ## What registration asks for -/

theorem contains_eq_false_iff (hs : s.InStep) {id : String} :
    s.contains id = false ↔ ∀ o ∈ s.options, o.id ≠ id := by
  constructor
  · rintro h o ho rfl
    rw [contains_eq_isSome, hs.mem_options_iff.1 ho] at h
    cases h
  · intro h
    cases hid : s.get? id with
    | none => rw [contains_eq_isSome, hid, Option.isSome_none]
    | some o =>
      have ho := hs.id_eq hid
      exact absurd ho (h o (hs.mem_options_iff.2 (by rw [ho, hid])))

theorem hasLong_eq_false_iff (hs : s.InStep) {l : String} :
    s.hasLong l = false ↔ ∀ o ∈ s.options, l ∉ o.longNames := by
  rw [hasLong, List.any_eq_false]
  constructor
  · intro h o ho hl
    have hentry : (o.id, o) ∈ s.byId.entries := Dict.find?_eq_some_iff.1 (hs.mem_options_iff.1 ho)
    exact h _ hentry (decide_eq_true hl)
  · rintro h ⟨id, o⟩ hentry hl
    have hget : s.get? id = some o := Dict.find?_eq_some_iff.2 hentry
    have ho : o ∈ s.options := hs.mem_options_iff.2 (by rw [hs.id_eq hget, hget])
    exact h o ho (of_decide_eq_true hl)

/-- An option is refused unless its id is new and not empty, none of its names is
    reserved, and its long names are new. -/
theorem refusal?_eq_none_iff (hs : s.InStep) :
    s.refusal? o = none ↔
      o.id ≠ "" ∧ (∀ name ∈ o.id :: o.longNames, name ∉ reservedNames) ∧
        (∀ o' ∈ s.options, o'.id ≠ o.id) ∧
        ∀ l ∈ o.longNames, ∀ o' ∈ s.options, l ∉ o'.longNames := by
  have hres : (o.id :: o.longNames).find? (· ∈ reservedNames) = none ↔
      ∀ name ∈ o.id :: o.longNames, name ∉ reservedNames := by
    simp only [List.find?_eq_none, decide_eq_true_eq]
  have hlong : o.longNames.find? s.hasLong = none ↔
      ∀ l ∈ o.longNames, ∀ o' ∈ s.options, l ∉ o'.longNames := by
    simp only [List.find?_eq_none, Bool.not_eq_true, hasLong_eq_false_iff hs]
  rw [← hres, ← hlong, ← contains_eq_false_iff hs]
  unfold refusal?
  by_cases hid : o.id = ""
  · simp [hid]
  · rw [if_neg (by simpa using hid)]
    cases hr : (o.id :: o.longNames).find? (· ∈ reservedNames) with
    | some name => simp
    | none =>
      cases hc : s.contains o.id with
      | true => simp
      | false => simp [hid]

/-! ## What registration keeps -/

theorem distinct_empty : Distinct ∅ where
  ids := .nil
  longs := .nil
  unreserved := fun _ h => absurd h List.not_mem_nil
  nonempty := fun _ h => absurd h List.not_mem_nil

/-- Registering one more option keeps the names distinct. -/
theorem Distinct.register (hs : s.Distinct) (hstep : s.InStep) (h : s.register o = .ok s') :
    s'.Distinct := by
  obtain ⟨hnone, rfl⟩ := register_eq_ok_iff.1 h
  obtain ⟨hid, hres, hids, hlongs⟩ := (refusal?_eq_none_iff hstep).1 hnone
  have hadd : (s.add o).options = s.options ++ [o] :=
    options_add hstep (contains_of_refusal? hnone)
  have hpair {R : OptionSpec → OptionSpec → Prop} (hR : s.options.Pairwise R)
      (hnew : ∀ o' ∈ s.options, R o' o) : (s.add o).options.Pairwise R := by
    rw [hadd, List.pairwise_append]
    refine ⟨hR, List.pairwise_singleton R o, fun a ha b hb => ?_⟩
    obtain rfl := List.mem_singleton.1 hb
    exact hnew a ha
  have hall {P : OptionSpec → Prop} (hP : ∀ o' ∈ s.options, P o') (hnew : P o) :
      ∀ o' ∈ (s.add o).options, P o' := by
    intro o' ho'
    rw [hadd, List.mem_append, List.mem_singleton] at ho'
    rcases ho' with ho' | rfl
    · exact hP o' ho'
    · exact hnew
  exact ⟨hpair hs.ids hids, hpair hs.longs fun o' ho' l hl hlo => hlongs l hlo o' ho' hl,
    hall hs.unreserved hres, hall hs.nonempty hid⟩

theorem Registered.inStep (hs : s.Registered) : s.InStep := by
  induction hs with
  | empty => exact inStep_empty
  | register _ h ih => exact ih.register h

theorem Registered.distinct (hs : s.Registered) : s.Distinct := by
  induction hs with
  | empty => exact distinct_empty
  | register hs h ih => exact ih.register hs.inStep h

/-- A list of options, as far as it is registered, leads to a reached schema. -/
theorem registered_registerAll (hs : s.Registered) (options : List OptionSpec) :
    (s.registerAll options).schema.Registered := by
  induction options generalizing s with
  | nil => exact hs
  | cons o rest ih =>
    unfold registerAll
    cases h : s.register o with
    | error e => exact hs
    | ok s' => exact ih (hs.register h)

theorem registered_ofOptions (options : List OptionSpec) : (ofOptions options).Registered :=
  registered_registerAll .empty options

/-! ## One name, one option -/

theorem Distinct.ids_nodup (hs : s.Distinct) : (s.options.map (·.id)).Nodup :=
  List.Pairwise.map _ (fun _ _ hne => hne) hs.ids

theorem Distinct.eq_of_id (hs : s.Distinct) (ho : o ∈ s.options) (ho' : o' ∈ s.options)
    (h : o.id = o'.id) : o = o' := by
  have hpair := List.Pairwise.forall_of_forall_of_flip (R := fun a b => a.id = b.id → a = b)
    (fun _ _ _ => rfl) (hs.ids.imp fun hne h => absurd h hne)
    (hs.ids.imp fun hne h => absurd h.symm hne)
  exact hpair ho ho' h

theorem Distinct.eq_of_long (hs : s.Distinct) (ho : o ∈ s.options) (ho' : o' ∈ s.options)
    {l : String} (h : l ∈ o.longNames) (h' : l ∈ o'.longNames) : o = o' := by
  have hpair := List.Pairwise.forall_of_forall_of_flip
    (R := fun a b => ∀ l ∈ a.longNames, l ∈ b.longNames → a = b)
    (fun _ _ _ _ _ => rfl) (hs.longs.imp fun hne l ha hb => absurd hb (hne l ha))
    (hs.longs.imp fun hne l ha hb => absurd ha (hne l hb))
  exact hpair ho ho' l h h'

end Schema
end LaunchConfig
