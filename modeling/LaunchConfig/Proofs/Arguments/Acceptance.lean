import LaunchConfig.Proofs.Arguments.Scanning

/-!
# The command lines that are accepted

What the grammar splits is accepted if no option of a single value occurs twice and
each option that is left without its value has one elsewhere. The command line is
then the one that the occurrences come to.

Results:

* `fault?_eq_none_iff`: when nothing is wrong with items;
* `Grammar.parse_eq_ok_iff_splits`: the arguments that are accepted, and as what.
-/

namespace LaunchConfig

/-! ## What is asked of the occurrences -/

namespace Occurrence

/-- No option of a single value occurs twice. -/
def Once (us : List Occurrence) : Prop :=
  ∀ o : OptionSpec, o.arity = .single → us.countP (·.option? = some o) ≤ 1

/-- No option of a single value occurs twice, and none that takes a value goes
    without one. -/
structure Admissible (us : List Occurrence) : Prop where
  once : Once us
  supplied (o : OptionSpec) : .bare o ∈ us → ∃ v, .valued o v ∈ us

end Occurrence

open Occurrence (Once Admissible)

namespace Item

variable {s : Schema} {items : List Item} {o : OptionSpec}

@[simp] theorem option?_occurrence (i : Item) : i.occurrence.option? = i.option? := by
  cases i <;> rfl

theorem any_id_iff (hs : s.Distinct) {i : Item} (hi : i.occurrence.Of s) (ho : o ∈ s.options) :
    i.option?.any (·.id = o.id) = true ↔ i.option? = some o := by
  rw [← option?_occurrence]
  cases hu : i.occurrence.option? with
  | none => simp
  | some o' =>
    simp only [Option.any_some, decide_eq_true_eq, Option.some.injEq]
    refine ⟨fun hid => ?_, fun h => h ▸ rfl⟩
    have hone : ∀ u ∈ [i.occurrence], u.Of s := by simpa using hi
    exact Occurrence.eq_of_id hs hone ho List.mem_cons_self hu hid

theorem hasValue_iff (hs : s.Distinct) (hitems : ∀ i ∈ items, i.occurrence.Of s)
    (ho : o ∈ s.options) :
    hasValue items o = true ↔ ∃ v, Occurrence.valued o v ∈ items.map occurrence := by
  simp only [hasValue, List.any_eq_true, Bool.and_eq_true, List.mem_map]
  constructor
  · rintro ⟨i, hi, htext, hid⟩
    have hopt := (any_id_iff hs (hitems i hi) ho).1 hid
    cases i with
    | positional t => cases hopt
    | flag o' => cases htext
    | bare o' => cases htext
    | attached o' v => cases hopt; exact ⟨v.text, _, hi, rfl⟩
    | detached o' v => cases hopt; exact ⟨v.text, _, hi, rfl⟩
  · rintro ⟨v, i, hi, hocc⟩
    have hopt : i.option? = some o := by rw [← option?_occurrence, hocc]; rfl
    refine ⟨i, hi, ?_, (any_id_iff hs (hitems i hi) ho).2 hopt⟩
    cases i <;> first | rfl | cases hocc

theorem occurrences_eq (hs : s.Distinct) (hitems : ∀ i ∈ items, i.occurrence.Of s)
    (ho : o ∈ s.options) :
    occurrences items o = (items.map occurrence).countP (·.option? = some o) := by
  rw [occurrences, List.countP_map]
  refine List.countP_congr fun i hi => ?_
  rw [any_id_iff hs (hitems i hi) ho, Function.comp_apply, decide_eq_true_eq, option?_occurrence]

theorem misuse?_eq_none_iff :
    misuse? items o = none ↔
      (o.takesValue = true → hasValue items o = true) ∧
        (o.arity = .single → occurrences items o ≤ 1) := by
  unfold misuse?
  by_cases hv : o.takesValue = true ∧ hasValue items o = false
  · simp [hv]
  · rw [if_neg (by simpa using hv)]
    have hv : o.takesValue = true → hasValue items o = true := by simpa using hv
    rw [and_iff_right hv]
    by_cases ha : o.arity = .single <;> simp [ha]

theorem fault?_eq_none_iff_forall {awaited? : Option OptionSpec} :
    fault? awaited? items = none ↔
      items.all readable = true ∧ (∀ o ∈ awaited?, hasValue items o = true) ∧
        ∀ i ∈ items, ∀ o ∈ i.option?, misuse? items o = none := by
  have hmisuse : (items.filterMap option?).findSome? (misuse? items) = none ↔
      ∀ i ∈ items, ∀ o ∈ i.option?, misuse? items o = none := by
    simp only [List.findSome?_eq_none_iff, List.mem_filterMap, Option.mem_def]
    exact ⟨fun h i hi o ho => h o ⟨i, hi, ho⟩, fun h o ⟨i, hi, ho⟩ => h i hi o ho⟩
  have hawaited : (awaited?.filter fun o => !hasValue items o) = none ↔
      ∀ o ∈ awaited?, hasValue items o = true := by
    simp [Option.filter_eq_none_iff]
  rw [← hmisuse, ← hawaited]
  unfold fault?
  cases hr : items.all readable with
  | false => simp
  | true =>
    cases ha : awaited?.filter fun o => !hasValue items o with
    | some o => simp
    | none => simp

theorem mem_options_of_option? (hitems : ∀ i ∈ items, i.occurrence.Of s) {i : Item} (hi : i ∈ items)
    (ho : i.option? = some o) : o ∈ s.options := by
  have h := hitems i hi
  cases i <;> cases ho <;> exact h.1

/-- An option occurs with a value, or left without one, or else it takes none. -/
theorem hasValue_of_occurs (hs : s.Distinct) (hitems : ∀ i ∈ items, i.occurrence.Of s)
    (hbare : .bare o ∈ items.map occurrence → hasValue items o = true) {i : Item} (hi : i ∈ items)
    (ho : i.option? = some o) (htakes : o.takesValue = true) : hasValue items o = true := by
  have hmem : o ∈ s.options := mem_options_of_option? hitems hi ho
  have hocc : i.occurrence ∈ items.map occurrence := List.mem_map_of_mem hi
  cases i with
  | positional t => cases ho
  | flag o' =>
    cases ho
    cases (hitems _ hi).2.symm.trans htakes
  | bare o' =>
    cases ho
    exact hbare hocc
  | attached o' v =>
    cases ho
    exact (hasValue_iff hs hitems hmem).2 ⟨v.text, hocc⟩
  | detached o' v =>
    cases ho
    exact (hasValue_iff hs hitems hmem).2 ⟨v.text, hocc⟩

/-- An option that occurs does so once exactly if no option of a single value is repeated. -/
theorem once_iff (hs : s.Distinct) (hitems : ∀ i ∈ items, i.occurrence.Of s) :
    (∀ i ∈ items, ∀ o ∈ i.option?, o.arity = .single → occurrences items o ≤ 1) ↔
      Once (items.map occurrence) := by
  constructor
  · intro h o hsingle
    by_cases hocc : ∃ i ∈ items, i.option? = some o
    · obtain ⟨i, hi, ho⟩ := hocc
      rw [← occurrences_eq hs hitems (mem_options_of_option? hitems hi ho)]
      exact h i hi o ho hsingle
    · have hzero : (items.map occurrence).countP (·.option? = some o) = 0 := by
        rw [List.countP_eq_zero, List.forall_mem_map]
        intro i hi ho
        rw [decide_eq_true_eq, option?_occurrence] at ho
        exact hocc ⟨i, hi, ho⟩
      omega
  · intro h i hi o ho hsingle
    rw [occurrences_eq hs hitems (mem_options_of_option? hitems hi ho)]
    exact h o hsingle

/-- Nothing is wrong with items that are read as far as `m` exactly if their text is
    UTF-8 and their occurrences are admissible. -/
theorem fault?_eq_none_iff (hs : s.Distinct) {m : Mode}
    (hitems : ∀ i ∈ m.complete items, i.occurrence.Of s) :
    fault? m.awaited? (m.complete items) = none ↔
      (m.complete items).all readable = true ∧
        Admissible ((m.complete items).map occurrence) := by
  rw [fault?_eq_none_iff_forall]
  refine and_congr_right fun _ => ?_
  constructor
  · rintro ⟨-, hall⟩
    refine ⟨(once_iff hs hitems).1 fun i hi o ho => (misuse?_eq_none_iff.1 (hall i hi o ho)).2,
      fun o hbare => ?_⟩
    obtain ⟨i, hi, hbare⟩ := List.mem_map.1 hbare
    have ho : i.option? = some o := by rw [← option?_occurrence, hbare]; rfl
    have htakes : o.takesValue = true := by
      have h := hitems i hi
      rw [hbare] at h
      exact h.2
    exact (hasValue_iff hs hitems (mem_options_of_option? hitems hi ho)).1
      ((misuse?_eq_none_iff.1 (hall i hi o ho)).1 htakes)
  · rintro ⟨honce, hsupplied⟩
    have hbare (o : OptionSpec) (h : .bare o ∈ (m.complete items).map occurrence) :
        hasValue (m.complete items) o = true := by
      obtain ⟨i, hi, hocc⟩ := List.mem_map.1 h
      have ho : i.option? = some o := by rw [← option?_occurrence, hocc]; rfl
      exact (hasValue_iff hs hitems (mem_options_of_option? hitems hi ho)).2 (hsupplied o h)
    refine ⟨fun o ho => hbare o ?_, fun i hi o ho => misuse?_eq_none_iff.2
      ⟨hasValue_of_occurs hs hitems (hbare o) hi ho, (once_iff hs hitems).2 honce i hi o ho⟩⟩
    -- the option that waits at the end is left over as one without value
    have hleft : Item.bare o ∈ m.complete items := by
      rw [Mode.complete, Mode.leftover, show m.awaited? = some o from ho]
      simp
    exact List.mem_map_of_mem hleft

end Item

/-! ## Acceptance -/

/-- The arguments that are accepted are those that can be split into admissible
    occurrences, and the command line is what these come to. -/
theorem Grammar.parse_eq_ok_iff_splits {g : Grammar} (hs : g.schema.Distinct)
    (ht : g.schema.Typable) {args : List RawText} (hp : ∀ a ∈ args, a.Proper) {p : CommandLine} :
    g.parse args = .ok p ↔
      ∃ (ts : List String) (us : List Occurrence), args = ts.map .ofString ∧
        Splits g.schema ts us ∧ Admissible us ∧ Occurrence.Reads us p := by
  rw [Grammar.parse_eq_ok_iff (hs.parsable ht)]
  constructor
  · rintro ⟨items, m, hscan, hfault, rfl⟩
    have hall := (Item.fault?_eq_none_iff_forall.1 hfault).1
    obtain ⟨ts, hts, hsplit⟩ := splits_of_scans hs ht hp ⟨items, m, hscan, rfl⟩ hall
    have hitems : ∀ i ∈ m.complete items, i.occurrence.Of g.schema := fun i hi =>
      hsplit.of _ (List.mem_map_of_mem hi)
    exact ⟨ts, _, hts, hsplit, ((Item.fault?_eq_none_iff hs hitems).1 hfault).2,
      Occurrence.reads_ofItems hs hitems⟩
  · rintro ⟨ts, us, rfl, hsplit, hadm, hreads⟩
    obtain ⟨_, ⟨items, m, hscan, rfl⟩, rfl, hall⟩ := gives_of_splits hs ht hsplit
    have hitems : ∀ i ∈ m.complete items, i.occurrence.Of g.schema := fun i hi =>
      hsplit.of _ (List.mem_map_of_mem hi)
    exact ⟨items, m, hscan, (Item.fault?_eq_none_iff hs hitems).2 ⟨hall, hadm⟩,
      hreads.unique (Occurrence.reads_ofItems hs hitems)⟩

/-- The same for arguments that are strings. -/
theorem Schema.parse_ofString_eq_ok_iff {s : Schema} (hs : s.Distinct) (ht : s.Typable)
    {ts : List String} {p : CommandLine} :
    s.parse (ts.map .ofString) = .ok p ↔
      ∃ us, Splits s ts us ∧ Admissible us ∧ Occurrence.Reads us p := by
  have hproper : ∀ a ∈ ts.map RawText.ofString, a.Proper :=
    List.forall_mem_map.2 fun t _ => RawText.proper_ofString t
  rw [Schema.parse, Grammar.parse_eq_ok_iff_splits hs ht hproper]
  constructor
  · rintro ⟨ts', us, hts, hrest⟩
    obtain rfl : ts = ts' := List.map_injective_iff.2 (fun _ _ => RawText.ofString_inj.1) hts
    exact ⟨us, hrest⟩
  · rintro ⟨us, hrest⟩
    exact ⟨ts, us, rfl, hrest⟩

end LaunchConfig
