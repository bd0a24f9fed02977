import LaunchConfig.Proofs.Arguments.Acceptance
import Mathlib.Data.List.Basic

/-!
# Which command lines there are

Not every command line can be read from arguments. Only options of the schema are
present; a flag has no value, an option that takes a value has one at least, and no more
if it takes a single one. Apart from the tasks that some options ask for, this is all: a
command line that conforms to the schema can be written as arguments, each option by its
long name and with its value after `=`, and all extra arguments after `--`.

Results:

* `conforms_of_parse`: what is read conforms to the schema;
* `parse_written`: what conforms is read back from the arguments it is written as.
-/

namespace LaunchConfig

variable {s : Schema} {p : CommandLine} {o : OptionSpec}

/-! ## Command lines of a schema -/

namespace CommandLine

/-- The command line has options of the schema only, each with as many values as it takes. -/
structure Conforms (s : Schema) (p : CommandLine) : Prop where
  known (id : String) : p.has id = true → ∃ o ∈ s.options, o.id = id
  unvalued (o : OptionSpec) : o ∈ s.options → o.takesValue = false → p.values o.id = []
  valued (o : OptionSpec) : o ∈ s.options → o.takesValue = true → p.has o.id = true →
    p.values o.id ≠ []
  once (o : OptionSpec) : o ∈ s.options → o.arity = .single → (p.values o.id).length ≤ 1

/-- The occurrences of an option. -/
def occurrencesOf (p : CommandLine) (o : OptionSpec) : List Occurrence :=
  if o.takesValue then (p.values o.id).map (.valued o)
  else if p.has o.id then [.flag o] else []

/-- The occurrences of all options, in the order of the schema. -/
def occurrences (s : Schema) (p : CommandLine) : List Occurrence :=
  s.options.flatMap p.occurrencesOf

end CommandLine

namespace OptionSpec

/-- The option as it is written: by its long name if it has one, else by its letter. -/
def written (o : OptionSpec) : String :=
  match o.typedLong? with
  | some l => "--" ++ l
  | none => "-" ++ o.id

end OptionSpec

/-- An occurrence as one argument. -/
def Occurrence.written : Occurrence → String
  | positional t => t
  | flag o | bare o => o.written
  | valued o v => o.written ++ "=" ++ v

/-- A command line as arguments. -/
def CommandLine.written (s : Schema) (p : CommandLine) : List String :=
  (p.occurrences s).map Occurrence.written ++ "--" :: p.extra

/-! ## What is written can be split -/

theorem OptionSpec.exists_short?_of_typedLong? (h : o.typedLong? = none) :
    ∃ c, o.short? = some c ∧ o.id.toList = [c] := by
  have hnone : o.long?.or (if o.short?.isNone then some o.id else none) = none :=
    Option.map_eq_none_iff.1 h
  obtain ⟨-, hshort⟩ := Option.or_eq_none_iff.1 hnone
  cases hc : o.short? with
  | none => simp [hc] at hshort
  | some c => exact ⟨c, rfl, OptionSpec.short?_eq_some_iff.1 hc⟩

theorem spells_flag (ho : o ∈ s.options) (hf : o.takesValue = false) :
    Spells s o.written [.flag o] none := by
  cases hl : o.typedLong? with
  | some l =>
    rw [OptionSpec.written, hl]
    exact .longFlag ho hf hl
  | none =>
    obtain ⟨c, hc, hid⟩ := OptionSpec.exists_short?_of_typedLong? hl
    have hletters : Spells s (.ofList ['-', c]) [.flag o] none :=
      .letters (List.cons_ne_nil c []) (.flag ho hf hc .nil)
    have htext : o.written = .ofList ['-', c] := by
      rw [OptionSpec.written, hl, ← String.toList_inj]
      simp [hid]
    rw [htext]
    exact hletters

theorem spells_valued (ho : o ∈ s.options) (ht : o.takesValue = true) (v : String) :
    Spells s (o.written ++ "=" ++ v) [.valued o v] none := by
  cases hl : o.typedLong? with
  | some l =>
    rw [OptionSpec.written, hl]
    exact .longValue v ho ht hl
  | none =>
    obtain ⟨c, hc, hid⟩ := OptionSpec.exists_short?_of_typedLong? hl
    have hcluster : Cluster s (c :: '=' :: v.toList) [.valued o (.ofList v.toList)] none :=
      .value ho ht hc (List.cons_ne_nil '=' v.toList)
    have hletters : Spells s (.ofList ('-' :: c :: '=' :: v.toList)) [.valued o v] none := by
      rw [String.ofList_toList] at hcluster
      exact .letters (List.cons_ne_nil c _) hcluster
    have htext : o.written ++ "=" ++ v = .ofList ('-' :: c :: '=' :: v.toList) := by
      rw [OptionSpec.written, hl, ← String.toList_inj]
      simp [hid]
    rw [htext]
    exact hletters

/-- Occurrences that are written as one argument each may stand before any others. -/
theorem Splits.written_append {us vs : List Occurrence} {ts : List String}
    (hus : ∀ u ∈ us, Spells s u.written [u] none) (h : Splits s ts vs) :
    Splits s (us.map Occurrence.written ++ ts) (us ++ vs) := by
  induction us with
  | nil => exact h
  | cons u us ih =>
    rw [List.forall_mem_cons] at hus
    have hcons : Splits s (u.written :: (us.map Occurrence.written ++ ts)) ([u] ++ (us ++ vs)) :=
      .named hus.1 (ih hus.2)
    exact hcons

namespace CommandLine

theorem spells_of_mem_occurrencesOf (ho : o ∈ s.options) {u : Occurrence}
    (hu : u ∈ p.occurrencesOf o) : Spells s u.written [u] none := by
  unfold occurrencesOf at hu
  split at hu
  · next ht =>
    obtain ⟨v, -, rfl⟩ := List.mem_map.1 hu
    exact spells_valued ho ht v
  · next hf =>
    split at hu
    · obtain rfl := List.mem_singleton.1 hu
      exact spells_flag ho (by simpa using hf)
    · cases hu

/-- The arguments that a command line is written as are split into its occurrences. -/
theorem splits_written (s : Schema) (p : CommandLine) :
    Splits s (p.written s) (p.occurrences s ++ p.extra.map .positional) := by
  refine .written_append (fun u hu => ?_) (.escape p.extra)
  obtain ⟨o, ho, hu⟩ := List.mem_flatMap.1 hu
  exact spells_of_mem_occurrencesOf ho hu

/-! ## What the occurrences come to -/

theorem of_mem_occurrencesOf {u : Occurrence} (hu : u ∈ p.occurrencesOf o) :
    u.option? = some o ∧ p.has o.id = true ∧ u ≠ .bare o := by
  unfold occurrencesOf at hu
  split at hu
  · obtain ⟨v, hv, rfl⟩ := List.mem_map.1 hu
    refine ⟨rfl, ?_, nofun⟩
    cases hp : p.has o.id with
    | true => rfl
    | false =>
      rw [values_of_not_has hp] at hv
      cases hv
  · split at hu
    · next hp =>
      obtain rfl := List.mem_singleton.1 hu
      exact ⟨rfl, hp, nofun⟩
    · cases hu

theorem Conforms.exists_mem_occurrencesOf (hp : p.Conforms s) (ho : o ∈ s.options)
    (h : p.has o.id = true) : ∃ u, u ∈ p.occurrencesOf o := by
  cases ht : o.takesValue with
  | false => exact ⟨.flag o, by simp [occurrencesOf, ht, h]⟩
  | true =>
    obtain ⟨v, hv⟩ := List.exists_mem_of_ne_nil _ (hp.valued o ho ht h)
    exact ⟨.valued o v, by simpa [occurrencesOf, ht] using hv⟩

/-- What occurs of one option has no value for another. -/
theorem Conforms.filterMap_occurrencesOf (hp : p.Conforms s) (ho : o ∈ s.options) (id : String) :
    (p.occurrencesOf o).filterMap (Occurrence.valueFor? id)
      = if o.id = id then p.values id else [] := by
  have hmap (vs : List String) : (vs.map (Occurrence.valued o)).filterMap (Occurrence.valueFor? id)
      = if o.id = id then vs else [] := by
    rw [List.filterMap_map]
    by_cases hid : o.id = id
    · have hsome : (Occurrence.valueFor? id ∘ Occurrence.valued o) = some := by
        funext v
        exact if_pos hid
      rw [hsome, List.filterMap_some, if_pos hid]
    · have hnone : (Occurrence.valueFor? id ∘ Occurrence.valued o) = fun _ => none := by
        funext v
        exact if_neg hid
      rw [hnone, List.filterMap_none, if_neg hid]
  cases ht : o.takesValue with
  | true =>
    rw [occurrencesOf, if_pos ht, hmap]
    by_cases hid : o.id = id
    · rw [if_pos hid, if_pos hid, hid]
    · rw [if_neg hid, if_neg hid]
  | false =>
    have hvalues : (if o.id = id then p.values id else []) = [] := by
      by_cases hid : o.id = id
      · rw [if_pos hid, ← hid, hp.unvalued o ho ht]
      · rw [if_neg hid]
    rw [hvalues, occurrencesOf, ht]
    cases p.has o.id <;> rfl

end CommandLine

theorem flatMap_ite_eq {α β : Type} [DecidableEq α] {l : List α} (hl : l.Nodup) (a : α)
    (xs : List β) : (l.flatMap fun b => if b = a then xs else []) = if a ∈ l then xs else [] := by
  induction l with
  | nil => rfl
  | cons b l ih =>
    rw [List.nodup_cons] at hl
    rw [List.flatMap_cons, ih hl.2]
    by_cases hb : b = a
    · subst hb
      rw [if_pos rfl, if_neg hl.1, if_pos List.mem_cons_self, List.append_nil]
    · simp [hb, Ne.symm hb]

namespace Occurrence

theorem extrasAfter_positional (before : List Occurrence) (ts : List String) :
    extrasAfter before (ts.map .positional) = ts := by
  induction ts generalizing before with
  | nil => rfl
  | cons t ts ih =>
    rw [List.map_cons, extrasAfter, ih]
    rfl

theorem extrasAfter_eq_nil {us : List Occurrence} (before : List Occurrence)
    (h : ∀ u ∈ us, ∃ o, u.option? = some o ∧ o.task? = none) : extrasAfter before us = [] := by
  induction us generalizing before with
  | nil => rfl
  | cons u us ih =>
    rw [List.forall_mem_cons] at h
    obtain ⟨⟨o, ho, htask⟩, hus⟩ := h
    have hnone : u.extra before = [] := by
      cases u with
      | positional t => cases ho
      | flag o' | valued o' v =>
        obtain rfl := Option.some.inj ho
        simp [extra, htask]
      | bare o' => rfl
    rw [extrasAfter, hnone, ih _ hus, List.append_nil]

/-! ## Occurrences and values -/

theorem Of.mem_options {u : Occurrence} (h : u.Of s) (huo : u.option? = some o) :
    o ∈ s.options := by
  cases u with
  | positional t => cases huo
  | flag o' | valued o' v | bare o' =>
    obtain rfl := Option.some.inj huo
    exact h.1

theorem eq_valued_of_valueFor? {us : List Occurrence} (hs : s.Distinct) (hus : ∀ u ∈ us, u.Of s)
    (ho : o ∈ s.options) {u : Occurrence} (hu : u ∈ us) (h : (u.valueFor? o.id).isSome = true) :
    ∃ v, u = .valued o v := by
  cases u with
  | positional t | flag o' | bare o' => cases h
  | valued o' v =>
    by_cases hid : o'.id = o.id
    · exact ⟨v, by rw [eq_of_id hs hus ho hu rfl hid]⟩
    · rw [valueFor?, if_neg hid] at h
      cases h

/-- An option that takes a value and is never left without one has a value for each of its
    occurrences. -/
theorem Reads.countP_le {us : List Occurrence} (hreads : Reads us p) (hus : ∀ u ∈ us, u.Of s)
    (htakes : o.takesValue = true) (hbare : .bare o ∉ us) :
    us.countP (·.option? = some o) ≤ (p.values o.id).length := by
  rw [hreads.values_eq, List.length_filterMap_eq_countP]
  refine List.countP_mono_left fun u hu ho => ?_
  have huo : u.option? = some o := of_decide_eq_true ho
  cases u with
  | positional t => cases huo
  | flag o' =>
    obtain rfl := Option.some.inj huo
    cases htakes.symm.trans (hus _ hu).2
  | valued o' v =>
    obtain rfl := Option.some.inj huo
    rw [valueFor?, if_pos rfl]
    rfl
  | bare o' =>
    obtain rfl := Option.some.inj huo
    exact absurd hu hbare

end Occurrence

namespace CommandLine

open Occurrence (Reads Admissible)

/-- The occurrences of a command line that conforms to the schema come to it. -/
theorem Conforms.reads (hs : s.Distinct) (hp : p.Conforms s)
    (htask : ∀ o ∈ s.options, p.has o.id = true → o.task? = none) :
    Reads (p.occurrences s ++ p.extra.map .positional) p where
  has_iff id := by
    constructor
    · intro h
      obtain ⟨o, ho, rfl⟩ := hp.known id h
      obtain ⟨u, hu⟩ := hp.exists_mem_occurrencesOf ho h
      exact ⟨u, List.mem_append_left _ (List.mem_flatMap.2 ⟨o, ho, hu⟩), o,
        (of_mem_occurrencesOf hu).1, rfl⟩
    · rintro ⟨u, hu, o, huo, rfl⟩
      rcases List.mem_append.1 hu with hu | hu
      · obtain ⟨o', -, hu⟩ := List.mem_flatMap.1 hu
        obtain ⟨huo', hhas, -⟩ := of_mem_occurrencesOf hu
        obtain rfl := Option.some.inj (huo'.symm.trans huo)
        exact hhas
      · obtain ⟨t, -, rfl⟩ := List.mem_map.1 hu
        cases huo
  values_eq id := by
    have hpositional : (p.extra.map Occurrence.positional).filterMap (Occurrence.valueFor? id)
        = [] := by
      rw [List.filterMap_map]
      exact List.filterMap_eq_nil_iff.2 fun _ _ => rfl
    have hoptions : (p.occurrences s).filterMap (Occurrence.valueFor? id)
        = (s.options.map (·.id)).flatMap fun j => if j = id then p.values id else [] := by
      rw [occurrences, List.filterMap_flatMap, List.flatMap_map]
      exact List.flatMap_congr fun o ho => hp.filterMap_occurrencesOf ho id
    rw [List.filterMap_append, hpositional, List.append_nil, hoptions,
      flatMap_ite_eq hs.ids_nodup]
    by_cases hid : id ∈ s.options.map (·.id)
    · rw [if_pos hid]
    · have hnone : p.has id = false := by
        cases h : p.has id with
        | false => rfl
        | true => exact absurd (List.mem_map.2 (hp.known id h)) hid
      rw [if_neg hid, values_of_not_has hnone]
  extra_eq := by
    have hoptions : Occurrence.extrasAfter [] (p.occurrences s) = [] := by
      refine Occurrence.extrasAfter_eq_nil [] fun u hu => ?_
      obtain ⟨o, ho, hu⟩ := List.mem_flatMap.1 hu
      obtain ⟨huo, hhas, -⟩ := of_mem_occurrencesOf hu
      exact ⟨o, huo, htask o ho hhas⟩
    rw [Occurrence.extras, Occurrence.extrasAfter_append, hoptions, List.nil_append,
      Occurrence.extrasAfter_positional]

theorem Conforms.admissible (hs : s.Distinct) (hp : p.Conforms s)
    (htask : ∀ o ∈ s.options, p.has o.id = true → o.task? = none) :
    Admissible (p.occurrences s ++ p.extra.map .positional) := by
  have hof := (splits_written s p).of
  have hbare (o : OptionSpec) : .bare o ∉ p.occurrences s ++ p.extra.map .positional := by
    intro hu
    rcases List.mem_append.1 hu with hu | hu
    · obtain ⟨o', -, hu⟩ := List.mem_flatMap.1 hu
      obtain ⟨huo, -, hne⟩ := of_mem_occurrencesOf hu
      obtain rfl := Option.some.inj huo
      exact hne rfl
    · obtain ⟨t, -, ht⟩ := List.mem_map.1 hu
      cases ht
  refine ⟨fun o hsingle => ?_, fun o ho => absurd ho (hbare o)⟩
  have htakes : o.takesValue = true := by
    rw [OptionSpec.takesValue, hsingle]
    rfl
  -- No occurrence is without a value, so an option occurs no more often than it has values.
  by_cases ho : o ∈ s.options
  · have hcount := (hp.reads hs htask).countP_le hof htakes (hbare o)
    have hlength := hp.once o ho hsingle
    omega
  · have hnone : ∀ u ∈ p.occurrences s ++ p.extra.map .positional, u.option? ≠ some o :=
      fun u hu huo => ho ((hof u hu).mem_options huo)
    rw [List.countP_eq_zero.2 fun u hu => by simpa using hnone u hu]
    exact Nat.zero_le 1

end CommandLine

/-! ## Reading -/

namespace Schema

/-- A command line that conforms to the schema and asks for no task by an option is read
    back from the arguments it is written as. -/
theorem parse_written (hs : s.Distinct) (ht : s.Typable) (hp : p.Conforms s)
    (htask : ∀ o ∈ s.options, p.has o.id = true → o.task? = none) :
    s.parse ((p.written s).map .ofString) = .ok p := by
  rw [parse_ofString_eq_ok_iff hs ht]
  exact ⟨_, p.splits_written s, hp.admissible hs htask, hp.reads hs htask⟩

/-- What is read conforms to the schema. -/
theorem conforms_of_parse (hs : s.Distinct) (ht : s.Typable) {args : List RawText}
    (hproper : ∀ a ∈ args, a.Proper) (h : s.parse args = .ok p) : p.Conforms s := by
  rw [Schema.parse, Grammar.parse_eq_ok_iff_splits hs ht hproper] at h
  obtain ⟨ts, us, -, hsplit, hadm, hreads⟩ := h
  have hof := hsplit.of
  refine ⟨fun id hid => ?_, fun o ho hflag => ?_, fun o ho htakes hhas => ?_,
    fun o ho hsingle => ?_⟩
  · obtain ⟨u, hu, o, huo, rfl⟩ := (hreads.has_iff id).1 hid
    exact ⟨o, (hof u hu).mem_options huo, rfl⟩
  · have hnone : us.countP (fun u => (u.valueFor? o.id).isSome) = 0 := by
      refine List.countP_eq_zero.2 fun u hu hv => ?_
      obtain ⟨v, rfl⟩ := Occurrence.eq_valued_of_valueFor? hs hof ho hu hv
      cases hflag.symm.trans (hof _ hu).2
    rw [← List.length_eq_zero_iff, hreads.values_eq, List.length_filterMap_eq_countP, hnone]
  · obtain ⟨u, hu, o', huo, hid⟩ := (hreads.has_iff o.id).1 hhas
    obtain rfl := Occurrence.eq_of_id hs hof ho hu huo hid
    have hvalued : ∃ v, .valued o' v ∈ us := by
      cases u with
      | positional t => cases huo
      | flag o =>
        obtain rfl := Option.some.inj huo
        cases htakes.symm.trans (hof _ hu).2
      | valued o v =>
        obtain rfl := Option.some.inj huo
        exact ⟨v, hu⟩
      | bare o =>
        obtain rfl := Option.some.inj huo
        exact hadm.supplied o hu
    obtain ⟨v, hv⟩ := hvalued
    rw [hreads.values_eq]
    exact List.ne_nil_of_mem (List.mem_filterMap.2 ⟨_, hv, if_pos rfl⟩)
  · have hle : us.countP (fun u => (u.valueFor? o.id).isSome)
        ≤ us.countP (·.option? = some o) := by
      refine List.countP_mono_left fun u hu hv => ?_
      obtain ⟨v, rfl⟩ := Occurrence.eq_valued_of_valueFor? hs hof ho hu hv
      exact decide_eq_true rfl
    rw [hreads.values_eq, List.length_filterMap_eq_countP]
    exact Nat.le_trans hle (hadm.once o hsingle)

theorem conforms_of_parse_ofBytes (hs : s.Distinct) (ht : s.Typable) {args : List (List UInt8)}
    (h : s.parse (args.map .ofBytes) = .ok p) : p.Conforms s :=
  conforms_of_parse hs ht (List.forall_mem_map.2 fun bytes _ => RawText.proper_ofBytes bytes) h

end Schema
end LaunchConfig
