import LaunchConfig.Proofs.Options.Steps

/-!
# Lists of options in any order

Registration compares an option with those before it only. What it compares them for is
symmetric, so that whether a list of options is registered to its end depends on its
members and not on their order, and so does what is found under an id.

Results:

* `error?_registerAll_eq_none_iff`: which lists are registered to their end;
* `error?_registerAll_perm`: … is the same in any order;
* `get?_eq_some_iff`, `get?_eq_of_perm`: what is found under an id.
-/

namespace LaunchConfig

namespace OptionSpec

/-- The id is not empty, and no name is reserved. -/
def Nameable (o : OptionSpec) : Prop :=
  o.id ≠ "" ∧ ∀ name ∈ o.id :: o.longNames, name ∉ reservedNames

/-- The options share no id and no long name. -/
def Apart (a b : OptionSpec) : Prop := a.id ≠ b.id ∧ ∀ l ∈ a.longNames, l ∉ b.longNames

theorem Apart.symm {a b : OptionSpec} (h : a.Apart b) : b.Apart a :=
  ⟨h.1.symm, fun l hb ha => h.2 l ha hb⟩

end OptionSpec

namespace Schema

variable {s s' : Schema} {o : OptionSpec}

/-! ## Registration to the end -/

theorem refusal?_eq_none_iff_apart (hs : s.InStep) :
    s.refusal? o = none ↔ o.Nameable ∧ ∀ o' ∈ s.options, o'.Apart o := by
  rw [refusal?_eq_none_iff hs]
  constructor
  · rintro ⟨hid, hres, hids, hlongs⟩
    exact ⟨⟨hid, hres⟩, fun o' ho' => ⟨hids o' ho', fun l hl ho => hlongs l ho o' ho' hl⟩⟩
  · rintro ⟨⟨hid, hres⟩, hapart⟩
    exact ⟨hid, hres, fun o' ho' => (hapart o' ho').1,
      fun l hl o' ho' hl' => (hapart o' ho').2 l hl' hl⟩

/-- A list is registered to its end if the names may be used, and neither an option that
    is there already nor another one of the list has them. -/
theorem error?_registerAll_eq_none_iff (hs : s.InStep) (os : List OptionSpec) :
    (s.registerAll os).error? = none ↔
      (∀ o ∈ os, o.Nameable ∧ ∀ o' ∈ s.options, o'.Apart o) ∧ os.Pairwise OptionSpec.Apart := by
  induction os generalizing s with
  | nil => simp [registerAll]
  | cons o rest ih =>
    rw [List.forall_mem_cons, List.pairwise_cons, ← refusal?_eq_none_iff_apart hs]
    cases hr : s.refusal? o with
    | some e => simp [registerAll, register_eq_error_iff.2 hr]
    | none =>
      have hreg : s.register o = .ok (s.add o) := register_eq_ok_iff.2 ⟨hr, rfl⟩
      have hadd : (s.add o).options = s.options ++ [o] :=
        options_add hs (contains_of_refusal? hr)
      simp only [registerAll, hreg, ih (hs.register hreg), hadd, List.forall_mem_append,
        List.forall_mem_singleton]
      -- what the rest is compared with: the options before `o`, and `o`
      constructor
      · rintro ⟨hrest, hpair⟩
        exact ⟨⟨trivial, fun o' ho' => ⟨(hrest o' ho').1, (hrest o' ho').2.1⟩⟩,
          fun o' ho' => (hrest o' ho').2.2, hpair⟩
      · rintro ⟨⟨-, hrest⟩, hnew, hpair⟩
        exact ⟨fun o' ho' => ⟨(hrest o' ho').1, (hrest o' ho').2, hnew o' ho'⟩, hpair⟩

theorem error?_registerAll_perm (hs : s.InStep) {os os' : List OptionSpec} (h : os.Perm os') :
    (s.registerAll os).error? = none ↔ (s.registerAll os').error? = none := by
  rw [error?_registerAll_eq_none_iff hs, error?_registerAll_eq_none_iff hs,
    h.pairwise_iff OptionSpec.Apart.symm]
  simp only [h.mem_iff]

theorem options_ofOptions {os : List OptionSpec} (h : (registerAll ∅ os).error? = none) :
    (ofOptions os).options = os := by
  rw [ofOptions, options_registerAll inStep_empty, (error?_eq_none_iff ∅ os).1 h]
  rfl

/-! ## What is found under an id -/

theorem InStep.get?_eq_some_iff (hs : s.InStep) {id : String} :
    s.get? id = some o ↔ o ∈ s.options ∧ o.id = id := by
  constructor
  · intro h
    obtain rfl := hs.id_eq h
    exact ⟨hs.mem_options_iff.2 h, rfl⟩
  · rintro ⟨ho, rfl⟩
    exact hs.mem_options_iff.1 ho

/-- The order of the options makes no difference to what is found under an id. -/
theorem InStep.get?_eq_of_perm (hs : s.InStep) (hs' : s'.InStep)
    (h : s.options.Perm s'.options) (id : String) : s.get? id = s'.get? id := by
  ext o
  rw [hs.get?_eq_some_iff, hs'.get?_eq_some_iff, h.mem_iff]

end Schema
end LaunchConfig
