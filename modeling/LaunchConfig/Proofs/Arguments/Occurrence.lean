import LaunchConfig.Arguments.Parse
import LaunchConfig.Proofs.Options.Registered

/-!
# What occurs on a command line

An `Occurrence` is a positional argument or one occurrence of an option, told
without regard to how it was typed. `Reads us p` says what command line the
occurrences `us` come to, for the presence and the values of each option and for
the extra arguments, without building it.

Results:

* `Reads.unique`: occurrences come to one command line at most;
* `reads_ofItems`: the command line that is built from items is the one that their
  occurrences come to.
-/

namespace LaunchConfig

/-- A positional argument, or an occurrence of an option. -/
inductive Occurrence where
  | positional (text : String)
  | flag (o : OptionSpec)
  | valued (o : OptionSpec) (value : String)
  /-- An option that takes a value and is left without one. -/
  | bare (o : OptionSpec)
  deriving DecidableEq, Repr

namespace Occurrence

variable {s : Schema} {u : Occurrence} {us vs : List Occurrence} {o : OptionSpec}

/-- The option that occurs, if one does. -/
def option? : Occurrence → Option OptionSpec
  | positional _ => none
  | flag o | valued o _ | bare o => some o

/-- The value that is given for the id. -/
def valueFor? (id : String) : Occurrence → Option String
  | valued o v => if o.id = id then some v else none
  | _ => none

/-- Is the option given, and not left without the value it takes? -/
def gives (o : OptionSpec) : Occurrence → Bool
  | flag o' | valued o' _ => o' = o
  | _ => false

/-- An option that occurs is given, unless it is left without its value. -/
theorem gives_iff : u.gives o = true ↔ u.option? = some o ∧ u ≠ .bare o := by
  cases u <;> simp [gives, option?]

/-- Registered in the schema, and given a value only if it takes one. -/
def Of (s : Schema) : Occurrence → Prop
  | positional _ => True
  | flag o => o ∈ s.options ∧ o.takesValue = false
  | valued o _ | bare o => o ∈ s.options ∧ o.takesValue = true

/-! ## Extra arguments -/

/-- What the occurrence adds to the extra arguments after `before`: a positional
    argument itself, and an option its task when it is given for the first time. -/
def extra (before : List Occurrence) : Occurrence → List String
  | positional t => [t]
  | flag o | valued o _ => if before.any (gives o) then [] else o.task?.toList
  | bare _ => []

/-- The extra arguments of occurrences that follow `before`. -/
def extrasAfter (before : List Occurrence) : List Occurrence → List String
  | [] => []
  | u :: us => u.extra before ++ extrasAfter (before ++ [u]) us

/-- The extra arguments, in order. -/
def extras (us : List Occurrence) : List String := extrasAfter [] us

theorem extrasAfter_append (before : List Occurrence) :
    extrasAfter before (us ++ vs) = extrasAfter before us ++ extrasAfter (before ++ us) vs := by
  induction us generalizing before with
  | nil => simp [extrasAfter]
  | cons u us ih =>
    rw [List.cons_append, extrasAfter, extrasAfter, ih (before ++ [u]), List.append_assoc,
      List.append_assoc, List.singleton_append]

theorem extras_concat : extras (us ++ [u]) = extras us ++ u.extra us := by
  rw [extras, extrasAfter_append, extrasAfter, extrasAfter, List.append_nil, List.nil_append]
  rfl

/-! ## The command line -/

/-- The occurrences come to the command line `p`. -/
structure Reads (us : List Occurrence) (p : CommandLine) : Prop where
  has_iff (id : String) : p.has id = true ↔ ∃ u ∈ us, ∃ o, u.option? = some o ∧ o.id = id
  values_eq (id : String) : p.values id = us.filterMap (valueFor? id)
  extra_eq : p.extra = extras us

theorem Reads.unique {p q : CommandLine} (hp : Reads us p) (hq : Reads us q) : p = q := by
  refine CommandLine.ext_values (fun id => ?_) (fun id => ?_) ?_
  · rw [Bool.eq_iff_iff, hp.has_iff, hq.has_iff]
  · rw [hp.values_eq, hq.values_eq]
  · rw [hp.extra_eq, hq.extra_eq]

theorem reads_nil : Reads [] ∅ where
  has_iff := by simp
  values_eq := by simp
  extra_eq := rfl

/-- In a schema with distinct names, an option that occurs under the id of `o` is `o`. -/
theorem eq_of_id (hs : s.Distinct) (hus : ∀ u ∈ us, u.Of s) (ho : o ∈ s.options) (hu : u ∈ us)
    {o' : OptionSpec} (h : u.option? = some o') (hid : o'.id = o.id) : o' = o := by
  have hof := hus u hu
  cases u with
  | positional t => cases h
  | flag o₁ => cases h; exact hs.eq_of_id hof.1 ho hid
  | valued o₁ v => cases h; exact hs.eq_of_id hof.1 ho hid
  | bare o₁ => cases h; exact hs.eq_of_id hof.1 ho hid

theorem Reads.has_flag (hs : s.Distinct) (hus : ∀ u ∈ us, u.Of s) {p : CommandLine}
    (hp : Reads us p) (ho : o ∈ s.options) (hflag : o.takesValue = false) :
    p.has o.id = us.any (gives o) := by
  rw [Bool.eq_iff_iff, hp.has_iff, List.any_eq_true]
  constructor
  · rintro ⟨u, hu, o', ho', hid⟩
    obtain rfl := eq_of_id hs hus ho hu ho' hid
    refine ⟨u, hu, gives_iff.2 ⟨ho', ?_⟩⟩
    rintro rfl
    cases hflag.symm.trans (hus _ hu).2
  · rintro ⟨u, hu, hg⟩
    exact ⟨u, hu, o, (gives_iff.1 hg).1, rfl⟩

/-- An option that takes a value has none exactly if it was not given. -/
theorem Reads.values_eq_nil_iff (hs : s.Distinct) (hus : ∀ u ∈ us, u.Of s) {p : CommandLine}
    (hp : Reads us p) (ho : o ∈ s.options) (htakes : o.takesValue = true) :
    p.values o.id = [] ↔ us.any (gives o) = false := by
  rw [hp.values_eq, List.filterMap_eq_nil_iff, List.any_eq_false]
  constructor
  · intro h u hu hg
    have hof := hus u hu
    cases u with
    | positional t => cases hg
    | bare o₁ => cases hg
    | flag o₁ =>
      obtain rfl : o₁ = o := of_decide_eq_true hg
      cases hof.2.symm.trans htakes
    | valued o₁ v =>
      obtain rfl : o₁ = o := of_decide_eq_true hg
      have := h _ hu
      simp [valueFor?] at this
  · intro h u hu
    cases u with
    | positional t => rfl
    | bare o₁ => rfl
    | flag o₁ => rfl
    | valued o₁ v =>
      rw [valueFor?, if_neg]
      intro hid
      obtain rfl := eq_of_id hs hus ho hu rfl hid
      exact h _ hu (by simp [gives])

end Occurrence

/-! ## Items -/

/-- What an item says, without regard to how it was typed. -/
def Item.occurrence : Item → Occurrence
  | positional t => .positional t.text
  | flag o => .flag o
  | attached o v | detached o v => .valued o v.text
  | bare o => .bare o

namespace Occurrence

variable {s : Schema} {us : List Occurrence} {p : CommandLine}

/-- One more occurrence, and what it adds to the command line. -/
theorem Reads.concat (hp : Reads us p) {u : Occurrence} {q : CommandLine}
    (hhas : ∀ id, q.has id = true ↔ p.has id = true ∨ ∃ o, u.option? = some o ∧ o.id = id)
    (hvalues : ∀ id, q.values id = p.values id ++ (u.valueFor? id).toList)
    (hextra : q.extra = p.extra ++ u.extra us) : Reads (us ++ [u]) q where
  has_iff id := by
    rw [hhas, hp.has_iff]
    simp only [List.mem_append, List.mem_singleton, or_and_right, exists_or, exists_eq_left]
  values_eq id := by
    rw [hvalues, hp.values_eq, List.filterMap_append]
    cases h : u.valueFor? id <;> simp [h]
  extra_eq := by rw [hextra, hp.extra_eq, extras_concat]

theorem has_withValues_iff (o : OptionSpec) (vs : List String) (id : String) :
    (p.withValues o.id vs).has id = true ↔
      p.has id = true ∨ ∃ o', some o = some o' ∧ o'.id = id := by
  rw [CommandLine.has_withValues, Bool.or_eq_true, decide_eq_true_eq, or_comm]
  simp only [Option.some.injEq, exists_eq_left', eq_comm (a := id)]

theorem Reads.add (hs : s.Distinct) (hus : ∀ u ∈ us, u.Of s) (hp : Reads us p) {i : Item}
    (hi : i.occurrence.Of s) : Reads (us ++ [i.occurrence]) (p.add i) := by
  have hvalued (o : OptionSpec) (v : RawText) (ho : o ∈ s.options ∧ o.takesValue = true) :
      Reads (us ++ [valued o v.text]) ((p.withValues o.id [v.text]).withExtra
        (if p.values o.id = [] then o.task?.toList else [])) := by
    refine hp.concat (has_withValues_iff o [v.text]) (fun id => ?_) ?_
    · by_cases h : id = o.id
      · simp [CommandLine.values_withValues, valueFor?, h]
      · simp [CommandLine.values_withValues, valueFor?, h, Ne.symm h]
    · have hnew := hp.values_eq_nil_iff hs hus ho.1 ho.2
      by_cases hg : us.any (gives o) = true
      · rw [if_neg (by simp [hnew, hg])]
        simp [extra, hg]
      · rw [if_pos (by simpa [hnew] using hg)]
        simp [extra, hg]
  cases i with
  | positional t =>
    refine hp.concat (fun id => ?_) (fun id => ?_) rfl
    · simp [CommandLine.add, Item.occurrence, option?]
    · simp [CommandLine.add, Item.occurrence, valueFor?]
  | flag o =>
    refine hp.concat (has_withValues_iff o []) (fun id => ?_) ?_
    · simp [CommandLine.add, Item.occurrence, valueFor?]
    · simp only [CommandLine.add, Item.occurrence, extra, CommandLine.extra_withExtra,
        CommandLine.extra_withOption, hp.has_flag hs hus hi.1 hi.2]
  | attached o v => exact hvalued o v hi
  | detached o v => exact hvalued o v hi
  | bare o =>
    refine hp.concat (has_withValues_iff o []) (fun id => ?_) ?_
    · simp [CommandLine.add, Item.occurrence, valueFor?]
    · simp [CommandLine.add, Item.occurrence, extra]

theorem Reads.addAll (hs : s.Distinct) (hus : ∀ u ∈ us, u.Of s) (hp : Reads us p)
    (items : List Item) (hitems : ∀ i ∈ items, i.occurrence.Of s) :
    Reads (us ++ items.map Item.occurrence) (p.addAll items) := by
  induction items generalizing us p with
  | nil => simpa using hp
  | cons i items ih =>
    have hi : i.occurrence.Of s := hitems i List.mem_cons_self
    have hus' : ∀ u ∈ us ++ [i.occurrence], u.Of s := by
      intro u hu
      rw [List.mem_append, List.mem_singleton] at hu
      rcases hu with hu | rfl
      · exact hus u hu
      · exact hi
    have h := ih hus' (hp.add hs hus hi) fun i' hi' => hitems i' (List.mem_cons_of_mem i hi')
    rw [List.append_assoc, List.singleton_append] at h
    exact h

/-- The command line that is built from items is what their occurrences come to. -/
theorem reads_ofItems (hs : s.Distinct) {items : List Item}
    (hitems : ∀ i ∈ items, i.occurrence.Of s) :
    Reads (items.map Item.occurrence) (.ofItems items) := by
  have hnil : ∀ u ∈ ([] : List Occurrence), u.Of s := fun u hu => absurd hu List.not_mem_nil
  exact reads_nil.addAll hs hnil items hitems

end Occurrence
end LaunchConfig
