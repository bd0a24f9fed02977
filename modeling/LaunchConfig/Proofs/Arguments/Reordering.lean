import LaunchConfig.Proofs.Arguments.Extension
import LaunchConfig.Proofs.Options.Lists

/-!
# Options in any order on a command line

A name stands for the first option that answers to it, so that the order of registration
could matter where two options answer to one name. Registration keeps ids and long names
apart, but it compares long names as they are given, while they are typed without the
dashes at their beginning: `alpha` and `--alpha` are two long names, and both are typed as
`--alpha`. With two such options no command line can be read, in either order. In all other
cases each name has one option, and the order makes no difference to what is read.

Results:

* `scan_congr`: what is read depends on what the names stand for;
* `long?_eq_of_perm`, `short?_eq_of_perm`: which does not depend on the order of the options;
* `parse_permuted`: what the order of registration makes no difference to.
-/

namespace LaunchConfig

/-! ## What reading depends on -/

namespace Grammar

variable {g g' : Grammar}

theorem readCluster_congr (hshort : ∀ c, g.short? c = g'.short? c) (junk : List UInt8)
    (cs : List Char) : g.readCluster junk cs = g'.readCluster junk cs := by
  induction cs with
  | nil => rfl
  | cons c rest ih => rw [readCluster, readCluster, hshort, ih]

theorem readLong_congr (hlong : ∀ l, g.long? l = g'.long? l) (name : RawText)
    (v? : Option RawText) : g.readLong name v? = g'.readLong name v? := by
  rw [readLong, readLong, longNamed?, longNamed?, hlong]

theorem readToken_congr (hshort : ∀ c, g.short? c = g'.short? c)
    (hlong : ∀ l, g.long? l = g'.long? l) (a : RawText) : g.readToken a = g'.readToken a := by
  unfold readToken
  cases Token.ofRaw a with
  | escape => rfl
  | plain => rfl
  | long name v? => exact readLong_congr hlong name v?
  | cluster letters => exact readCluster_congr hshort letters.junk letters.chars

theorem step_congr (hshort : ∀ c, g.short? c = g'.short? c)
    (hlong : ∀ l, g.long? l = g'.long? l) (m : Mode) (a : RawText) :
    g.step m a = g'.step m a := by
  cases m with
  | ready => exact readToken_congr hshort hlong a
  | trailing o? => rfl
  | awaiting o => rw [step, step, readToken_congr hshort hlong a]

/-- Grammars in which all names stand for the same read alike. -/
theorem scan_congr (hshort : ∀ c, g.short? c = g'.short? c)
    (hlong : ∀ l, g.long? l = g'.long? l) (m : Mode) (args : List RawText) :
    g.scan m args = g'.scan m args := by
  induction args generalizing m with
  | nil => rfl
  | cons a rest ih =>
    unfold scan
    rw [step_congr hshort hlong m a]
    rcases g'.step m a with ⟨items, halt | m'⟩
    · rfl
    · simp only [ih m']

end Grammar

/-! ## What names stand for in another order -/

/-- A member that is the only one of its kind is found in any order. -/
theorem find?_eq_of_perm {α : Type} {l l' : List α} (h : l.Perm l') {P : α → Bool}
    (hone : ∀ a ∈ l, ∀ b ∈ l, P a = true → P b = true → a = b) : l.find? P = l'.find? P := by
  cases hl : l.find? P with
  | none =>
    rw [List.find?_eq_none] at hl
    exact (List.find?_eq_none.2 fun a ha => hl a (h.mem_iff.2 ha)).symm
  | some a =>
    have ha : a ∈ l := List.mem_of_find?_eq_some hl
    have hsome : (l'.find? P).isSome := by
      rw [List.find?_isSome]
      exact ⟨a, h.mem_iff.1 ha, List.find?_some hl⟩
    obtain ⟨b, hb⟩ := Option.isSome_iff_exists.1 hsome
    have hbmem : b ∈ l := h.mem_iff.2 (List.mem_of_find?_eq_some hb)
    rw [hb, hone a ha b hbmem (List.find?_some hl) (List.find?_some hb)]

theorem Schema.Parsable.eq_of_typedLong? {s : Schema} (hs : s.Parsable) {a b : OptionSpec}
    {l : String} (ha : a ∈ s.options) (hb : b ∈ s.options) (hal : a.typedLong? = some l)
    (hbl : b.typedLong? = some l) : a = b := by
  have hapart := List.pairwise_filterMap.1 hs.2
  have hpair := List.Pairwise.forall_of_forall_of_flip
    (R := fun a b => ∀ l, a.typedLong? = some l → b.typedLong? = some l → a = b)
    (fun _ _ _ _ _ => rfl) (hapart.imp fun hne l ha hb => absurd rfl (hne l ha l hb))
    (hapart.imp fun hne l ha hb => absurd rfl (hne l hb l ha))
  exact hpair ha hb l hal hbl

theorem Schema.parsable_iff_of_perm {s s' : Schema} (h : s.options.Perm s'.options) :
    s.Parsable ↔ s'.Parsable := by
  rw [Parsable, Parsable, (h.filterMap _).nodup_iff]
  simp only [h.mem_iff]

namespace Grammar

variable {g g' : Grammar}

theorem generated_eq_of_perm (hperm : g.schema.options.Perm g'.schema.options)
    (hversion : g.hasVersion = g'.hasVersion) : g.generated = g'.generated := by
  have hany (P : OptionSpec → Bool) : g.schema.options.any P = g'.schema.options.any P := by
    rw [Bool.eq_iff_iff, List.any_eq_true, List.any_eq_true]
    simp only [hperm.mem_iff]
  rw [generated, generated, hversion]
  simp only [hany]

theorem find?_names_eq_of_perm (hperm : g.schema.options.Perm g'.schema.options)
    (hversion : g.hasVersion = g'.hasVersion) {P : Named → Bool}
    (hone : ∀ a ∈ g.schema.options, ∀ b ∈ g.schema.options,
      P (.option a) = true → P (.option b) = true → a = b) :
    g.names.find? P = g'.names.find? P := by
  have hoptions : g.schema.options.find? (P ∘ Named.option)
      = g'.schema.options.find? (P ∘ Named.option) := find?_eq_of_perm hperm hone
  rw [names, names, List.find?_append, List.find?_append, List.find?_map, List.find?_map, hoptions,
    generated_eq_of_perm hperm hversion]

theorem short?_eq_of_perm (hs : g.schema.Distinct)
    (hperm : g.schema.options.Perm g'.schema.options) (hversion : g.hasVersion = g'.hasVersion)
    (c : Char) : g.short? c = g'.short? c := by
  refine find?_names_eq_of_perm hperm hversion fun a ha b hb hac hbc => ?_
  exact hs.eq_of_id ha hb
    (OptionSpec.id_eq_of_short? (of_decide_eq_true hac) (of_decide_eq_true hbc))

theorem long?_eq_of_perm (hs : g.schema.Parsable)
    (hperm : g.schema.options.Perm g'.schema.options) (hversion : g.hasVersion = g'.hasVersion)
    (l : String) : g.long? l = g'.long? l := by
  refine find?_names_eq_of_perm hperm hversion fun a ha b hb hal hbl => ?_
  exact hs.eq_of_typedLong? ha hb (of_decide_eq_true hal) (of_decide_eq_true hbl)

theorem parse_eq_of_perm (hs : g.schema.Distinct)
    (hperm : g.schema.options.Perm g'.schema.options) (hversion : g.hasVersion = g'.hasVersion)
    (args : List RawText) : g.parse args = g'.parse args := by
  have hparsable := Schema.parsable_iff_of_perm hperm
  by_cases h : g.schema.Parsable
  · rw [parse_of_parsable h, parse_of_parsable (hparsable.1 h),
      scan_congr (short?_eq_of_perm hs hperm hversion) (long?_eq_of_perm h hperm hversion)]
  · rw [parse_of_not_parsable h, parse_of_not_parsable (mt hparsable.2 h)]

end Grammar

namespace Schema

theorem parse_eq_of_perm {s s' : Schema} (hs : s.Distinct) (h : s.options.Perm s'.options)
    (args : List RawText) : s.parse args = s'.parse args := by
  refine Grammar.parse_eq_of_perm ?_ ?_ ?_ args
  · exact hs
  · exact h
  · rfl

/-! ## Lists of options in any order -/

/-- **What the order of registration makes no difference to.** Options that are registered
    to the end are so in any order, and only the order of the options differs: their number
    and what is found under an id are the same. The same comes of all arguments, be it a
    command line, an error, or nothing because the names cannot be told apart. -/
theorem parse_permuted (os : List OptionSpec) (h : (registerAll ∅ os).error? = none) :
    ∀ os', os.Perm os' →
      (registerAll ∅ os').error? = none ∧ (ofOptions os').options = os' ∧
      (ofOptions os').size = (ofOptions os).size ∧
      (∀ id, (ofOptions os').get? id = (ofOptions os).get? id) ∧
      ∀ args : List (List UInt8),
        (ofOptions os').parse (args.map .ofBytes) = (ofOptions os).parse (args.map .ofBytes) := by
  intro os' hperm
  have h' : (registerAll ∅ os').error? = none := (error?_registerAll_perm inStep_empty hperm).1 h
  have hs := registered_ofOptions os
  have hs' := registered_ofOptions os'
  have hoptions := options_ofOptions h
  have hoptions' := options_ofOptions h'
  have hpermuted : (ofOptions os').options.Perm (ofOptions os).options := by
    rw [hoptions, hoptions']
    exact hperm.symm
  refine ⟨h', hoptions', ?_, hs'.inStep.get?_eq_of_perm hs.inStep hpermuted, fun args => ?_⟩
  · rw [hs.inStep.size_eq, hs'.inStep.size_eq, hpermuted.length_eq]
  · exact parse_eq_of_perm hs'.distinct hpermuted _

/-- The options `i` and `d` in either order: a cluster of their letters is read alike. With the
    long names `alpha` and `--alpha`, which both are registered, nothing is read in either. -/
theorem parse_permuted_levels :
    (registerAll ∅ [LoggingOption.info, LoggingOption.debug]).error? = none ∧
    (ofOptions [LoggingOption.debug, LoggingOption.info]).get? "i" = some LoggingOption.info ∧
    (ofOptions [LoggingOption.debug, LoggingOption.info]).parse
        ((["-id", "--debug", "x"].map (·.toUTF8.data.toList)).map .ofBytes)
      = .ok (.build [.option "i", .option "d", .extra ["x"]]) ∧
    (registerAll ∅ [{ id := "a", long? := some "alpha" },
      { id := "b", long? := some "--alpha" }]).error? = none ∧
    (ofOptions [{ id := "b", long? := some "--alpha" }, { id := "a", long? := some "alpha" }]).parse
        ((["--alpha"].map (·.toUTF8.data.toList)).map .ofBytes) = .error .crash := by
  have h : (registerAll ∅ [LoggingOption.info, LoggingOption.debug]).error? = none := rfl
  have halpha : (registerAll ∅ [{ id := "a", long? := some "alpha" },
      { id := "b", long? := some "--alpha" }]).error? = none := rfl
  obtain ⟨-, -, -, hget, hparse⟩ := parse_permuted _ h _ (.swap ..)
  obtain ⟨-, -, -, -, hcrash⟩ := parse_permuted _ halpha _ (.swap ..)
  refine ⟨h, hget "i", ?_, halpha, ?_⟩
  · rw [hparse]
    decide +kernel
  · rw [hcrash]
    decide +kernel

end Schema
end LaunchConfig
