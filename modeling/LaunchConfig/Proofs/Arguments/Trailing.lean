import LaunchConfig.Conversion.Build
import LaunchConfig.Proofs.Arguments.Mixing

/-!
# The end of the options

An argument `--` ends the options. Whatever comes after it is an extra argument as it stands:
it may look like an option, ask for help, be empty or be `--` again. It leaves the options
alone that stand before, and so it reaches nothing of a configuration but the tasks.

Results:

* `Occurrence.Reads.append_positional`: what positional arguments add to a command line;
* `Conversion.result_withExtra`: what they add to a conversion;
* `Schema.parse_append_escape`: everything after `--` is passed on.
-/

namespace LaunchConfig

variable {s : Schema}

namespace Occurrence

variable {us : List Occurrence} {p : CommandLine}

/-! ## Positional arguments at the end -/

theorem option?_of_mem_positional {ts : List String} {u : Occurrence}
    (hu : u ∈ ts.map positional) : u.option? = none := by
  obtain ⟨t, -, rfl⟩ := List.mem_map.1 hu
  rfl

/-- Positional arguments break no rule for options. -/
theorem Admissible.append_positional (h : Admissible us) (ts : List String) :
    Admissible (us ++ ts.map positional) where
  once o ho := by
    have hnone : (ts.map positional).countP (·.option? = some o) = 0 :=
      List.countP_eq_zero.2 fun u hu => by simp [option?_of_mem_positional hu]
    rw [List.countP_append, hnone, Nat.add_zero]
    exact h.once o ho
  supplied o ho := by
    have hus : .bare o ∈ us := by simpa using ho
    obtain ⟨v, hv⟩ := h.supplied o hus
    exact ⟨v, List.mem_append_left _ hv⟩

/-- Positional arguments are extra arguments, and nothing else. -/
theorem Reads.append_positional (h : Reads us p) (ts : List String) :
    Reads (us ++ ts.map positional) (p.withExtra ts) where
  has_iff id := by
    rw [CommandLine.has_withExtra, h.has_iff]
    constructor
    · rintro ⟨u, hu, ho⟩
      exact ⟨u, List.mem_append_left _ hu, ho⟩
    · rintro ⟨u, hu, o, ho, hid⟩
      rcases List.mem_append.1 hu with hu | hu
      · exact ⟨u, hu, o, ho, hid⟩
      · cases (option?_of_mem_positional hu).symm.trans ho
  values_eq id := by
    have hnone : (ts.map positional).filterMap (valueFor? id) = [] :=
      List.filterMap_eq_nil_iff.2 (List.forall_mem_map.2 fun _ _ => rfl)
    rw [CommandLine.values_withExtra, h.values_eq, List.filterMap_append, hnone, List.append_nil]
  extra_eq := by
    rw [CommandLine.extra_withExtra, h.extra_eq, extras, extras, extrasAfter_append,
      extrasAfter_positional]

end Occurrence

/-! ## Conversions -/

namespace Conversion

theorem applyTasks_withExtra (p : CommandLine) (ts : List String) (c : Configuration) :
    applyTasks (p.withExtra ts) c
      = { applyTasks p c with
          taskNames :=
            if p.extra ++ ts = [] then (applyTasks p c).taskNames else p.extra ++ ts } := by
  have hfields : applyTasks (p.withExtra ts) c = { applyTasks p c with
      taskNames := if (p.extra ++ ts).isEmpty then c.taskNames else p.extra ++ ts } := rfl
  rw [hfields]
  by_cases hp : p.extra = []
  · simp [applyTasks, hp]
  · simp [applyTasks, hp]

theorem result_withExtra (p : CommandLine) (ts : List String) (t : Configuration) :
    (convertWith .standard (p.withExtra ts) t).result
      = (convertWith .standard p t).result.map fun c =>
          { c with taskNames := if p.extra ++ ts = [] then c.taskNames else p.extra ++ ts } := by
  have hvalidate : validate (p.withExtra ts) = validate p := rfl
  rw [result_standard, result_standard, hvalidate]
  cases validate p with
  | error e => rfl
  | ok usage? => exact congrArg Except.ok (applyTasks_withExtra p ts _)

end Conversion

/-! ## Arguments -/

namespace Schema

/-- **Everything after `--` is passed on untouched.** Arguments that are accepted and have no
    `--` among them may be followed by one and then by any strings. They are accepted with the
    same options, and these strings follow their extra arguments. The conversion differs in the
    tasks at most. -/
theorem parse_append_escape (hs : s.Registered) (ht : s.Typable) {a : List (List UInt8)}
    {p : CommandLine} (h : s.parse (a.map .ofBytes) = .ok p)
    (hescape : "--".toUTF8.data.toList ∉ a) (r : List String) :
    ∃ q, s.parse ((a ++ ("--" :: r).map (·.toUTF8.data.toList)).map .ofBytes) = .ok q ∧
      q.options = p.options ∧ q.extra = p.extra ++ r ∧
      ∀ t, (Conversion.convertWith .standard q t).result
        = (Conversion.convertWith .standard p t).result.map fun c =>
            { c with taskNames := if p.extra ++ r = [] then c.taskNames else p.extra ++ r } := by
  have hd : s.Distinct := hs.distinct
  obtain ⟨ts, us, rfl, hts, hadm, hreads⟩ := exists_splits_of_parse hd ht h
  have hnot : "--" ∉ ts := fun hmem => hescape (List.mem_map_of_mem hmem)
  -- an option that stays open at the end cannot take `--` as its value
  have hend : ∀ t ∈ ("--" :: r).head?, ¬ Token.IsPlain (.ofString t) :=
    not_isPlain_escape fun t ht => (Option.some.inj ht).symm
  have hsplits : Splits s (ts ++ "--" :: r) (us ++ r.map .positional) :=
    hts.append hnot (.escape r) fun _ _ => hend
  have hargs : (ts.map (·.toUTF8.data.toList) ++ ("--" :: r).map (·.toUTF8.data.toList)).map
      .ofBytes = (ts ++ "--" :: r).map RawText.ofString :=
    RawText.map_ofBytes_eq_iff.2 List.map_append.symm
  refine ⟨p.withExtra r, ?_, rfl, rfl, Conversion.result_withExtra p r⟩
  rw [hargs, parse_ofString_eq_ok_iff hd ht]
  exact ⟨_, hsplits, hadm.append_positional r, hreads.append_positional r⟩

/-- After an option that is left without its value come `--` again, a flag that asks for help,
    nothing, an option and an unknown option. -/
theorem parse_append_escape_help :
    (buildSchema .standard).Registered ∧ (buildSchema .standard).Typable ∧
    (buildSchema .standard).parse
        ((["-I", "x", "-t", "-I"].map (·.toUTF8.data.toList)).map .ofBytes)
      = .ok (((∅ : CommandLine).withValues "I" ["x"] |>.withOption "t").withExtra ["tasks"]) ∧
    "--".toUTF8.data.toList ∉ ["-I", "x", "-t", "-I"].map (·.toUTF8.data.toList) ∧
    ∃ q, (buildSchema .standard).parse ((["-I", "x", "-t", "-I"].map (·.toUTF8.data.toList) ++
          ["--", "--", "-h", "", "-I", "--nope"].map (·.toUTF8.data.toList)).map .ofBytes)
        = .ok q ∧
      q.options = ((∅ : CommandLine).withValues "I" ["x"] |>.withOption "t").options ∧
      q.extra = ["tasks", "--", "-h", "", "-I", "--nope"] := by
  have h : (buildSchema .standard).parse
        ((["-I", "x", "-t", "-I"].map (·.toUTF8.data.toList)).map .ofBytes)
      = .ok (((∅ : CommandLine).withValues "I" ["x"] |>.withOption "t").withExtra ["tasks"]) := by
    decide +kernel
  have hescape : "--".toUTF8.data.toList ∉ ["-I", "x", "-t", "-I"].map (·.toUTF8.data.toList) := by
    decide
  obtain ⟨q, hq, hoptions, hextra, -⟩ := parse_append_escape registered_buildSchema_standard
    typable_buildSchema_standard h hescape ["--", "-h", "", "-I", "--nope"]
  exact ⟨registered_buildSchema_standard, typable_buildSchema_standard, h, hescape, q, hq,
    hoptions, hextra⟩

end Schema
end LaunchConfig
