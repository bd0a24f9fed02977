import LaunchConfig.Proofs.Arguments.Respelling
import LaunchConfig.Proofs.Configuration.Merging
import LaunchConfig.Proofs.Conversion.Failure
import LaunchConfig.Proofs.Conversion.Independence

/-!
# Properties on a command line

The text of a property meets two rules for `=`. The reader of arguments drops one that comes
right after the letter of an option, and the conversion cuts at the first that is left. If the
key is not empty and holds no `=`, neither does harm, whatever the value is: the properties
that are typed are those that end up in a configuration, and nothing else of it changes.

Results:

* `TypesProperties.exists_parse`: what arguments that give properties are read as;
* `TypesProperties.parse_convertWith`: the properties that are typed are those that are set.
-/

namespace LaunchConfig

open BuildOption (systemProperty projectProperty)

/-- The key is not empty and holds no `=`. -/
structure Property.WellKeyed (p : Property) : Prop where
  key_ne : p.key ≠ ""
  notMem : '=' ∉ p.key.toList

/-- The arguments give the system properties `ds` and the project properties `ps`, each in
    order, and in any way mixed with each other. -/
inductive TypesProperties : List Property → List Property → List String → Prop
  | nil : TypesProperties [] [] []
  | system {ds ps : List Property} {args : List String} (d : Property) :
      TypesProperties ds ps args → TypesProperties (d :: ds) ps (("-D" ++ d.text) :: args)
  | project {ds ps : List Property} {args : List String} (p : Property) :
      TypesProperties ds ps args → TypesProperties ds (p :: ps) (("-P" ++ p.text) :: args)

/-! ## Reading -/

/-- After the letter of an option the text of a property is the value as it stands. -/
theorem Property.WellKeyed.spells {p : Property} (h : p.WellKeyed) {s : Schema} {o : OptionSpec}
    (ho : o ∈ s.options) (hv : o.takesValue = true) {c : Char} (hc : o.short? = some c) :
    Spells s (.ofList ['-', c] ++ p.text) [.valued o p.text] none := by
  obtain ⟨k, ks, hks⟩ : ∃ k ks, p.key.toList = k :: ks :=
    List.exists_cons_of_ne_nil fun hnil => h.key_ne (String.toList_eq_nil_iff.1 hnil)
  have htext : p.text.toList = k :: (ks ++ '=' :: p.value.toList) := by
    simp [Property.text, hks]
  have hk : k ≠ '=' := by
    rintro rfl
    exact h.notMem (hks ▸ List.mem_cons_self)
  have hspelling : Spelling o (.valued o p.text) [.ofList ('-' :: c :: p.text.toList)] := by
    refine .letterJoined hv hc (fun hempty => ?_) ?_
    · simp [hempty] at htext
    · simpa [htext] using hk
  have harg : String.ofList ('-' :: c :: p.text.toList) = .ofList ['-', c] ++ p.text := by
    rw [← String.toList_inj]
    simp
  rcases hspelling.cases ho with ⟨t, ht, hsp⟩ | ⟨t, v, ht, -⟩
  · rw [List.singleton_inj.1 ht] at harg
    rwa [← harg]
  · cases ht

theorem Occurrence.admissible_of_forall_valued {us : List Occurrence}
    (h : ∀ u ∈ us, ∃ o v, u = .valued o v ∧ o.arity = .multiple) : Admissible us where
  once o ho := by
    have hnone : us.countP (·.option? = some o) = 0 := by
      refine List.countP_eq_zero.2 fun u hu => ?_
      obtain ⟨o', v, rfl, harity⟩ := h u hu
      simp only [option?, Option.some.injEq, decide_eq_true_eq]
      rintro rfl
      cases harity.symm.trans ho
    omega
  supplied o ho := by
    obtain ⟨o', v, hbare, -⟩ := h _ ho
    cases hbare

namespace TypesProperties

variable {ds ps : List Property} {args : List String}

theorem exists_splits (h : TypesProperties ds ps args) (hds : ∀ d ∈ ds, d.WellKeyed)
    (hps : ∀ p ∈ ps, p.WellKeyed) :
    ∃ us, Splits (buildSchema .standard) args us ∧
      (∀ u ∈ us, ∃ o ∈ [systemProperty, projectProperty], ∃ v, u = .valued o v) ∧
      us.filterMap (Occurrence.valueFor? "D") = ds.map Property.text ∧
      us.filterMap (Occurrence.valueFor? "P") = ps.map Property.text := by
  have hD : systemProperty ∈ (buildSchema .standard).options := mem_options_of_mem_all (by decide)
  have hP : projectProperty ∈ (buildSchema .standard).options := mem_options_of_mem_all (by decide)
  induction h with
  | nil => exact ⟨[], .nil, nofun, rfl, rfl⟩
  | @system ds ps args d _ ih =>
    rw [List.forall_mem_cons] at hds
    obtain ⟨us, hsplits, hus, hsystem, hproject⟩ := ih hds.2 hps
    refine ⟨.valued systemProperty d.text :: us, .named (hds.1.spells hD rfl rfl) hsplits, ?_,
      congrArg (d.text :: ·) hsystem, hproject⟩
    rw [List.forall_mem_cons]
    exact ⟨⟨systemProperty, by decide, _, rfl⟩, hus⟩
  | @project ds ps args p _ ih =>
    rw [List.forall_mem_cons] at hps
    obtain ⟨us, hsplits, hus, hsystem, hproject⟩ := ih hds hps.2
    refine ⟨.valued projectProperty p.text :: us, .named (hps.1.spells hP rfl rfl) hsplits, ?_,
      hsystem, congrArg (p.text :: ·) hproject⟩
    rw [List.forall_mem_cons]
    exact ⟨⟨projectProperty, by decide, _, rfl⟩, hus⟩

theorem exists_parse (h : TypesProperties ds ps args) (hds : ∀ d ∈ ds, d.WellKeyed)
    (hps : ∀ p ∈ ps, p.WellKeyed) :
    ∃ p, (buildSchema .standard).parse (args.map .ofString) = .ok p ∧
      p.values "D" = ds.map Property.text ∧ p.values "P" = ps.map Property.text ∧ p.extra = [] ∧
      ∀ id, id ∉ ["D", "P"] → p.has id = false := by
  have hd := registered_buildSchema_standard.distinct
  obtain ⟨us, hsplits, hus, hD, hP⟩ := h.exists_splits hds hps
  obtain ⟨p, hp⟩ := Occurrence.exists_reads hd hsplits.of
  have hoptions : ∀ o ∈ [systemProperty, projectProperty],
      o.arity = .multiple ∧ o.task? = none := by decide
  have hadm : Occurrence.Admissible us := by
    refine Occurrence.admissible_of_forall_valued fun u hu => ?_
    obtain ⟨o, ho, v, rfl⟩ := hus u hu
    exact ⟨o, v, rfl, (hoptions o ho).1⟩
  have hextra : Occurrence.extras us = [] := by
    refine Occurrence.extrasAfter_eq_nil [] fun u hu => ?_
    obtain ⟨o, ho, v, rfl⟩ := hus u hu
    exact ⟨o, rfl, (hoptions o ho).2⟩
  refine ⟨p, (Schema.parse_ofString_eq_ok_iff hd typable_buildSchema_standard).2
    ⟨us, hsplits, hadm, hp⟩, (hp.values_eq _).trans hD, (hp.values_eq _).trans hP,
    hp.extra_eq.trans hextra, fun id hid => ?_⟩
  rw [Bool.eq_false_iff]
  intro hhas
  obtain ⟨u, hu, o', ho', rfl⟩ := (hp.has_iff id).1 hhas
  obtain ⟨o, ho, v, rfl⟩ := hus u hu
  obtain rfl := Option.some.inj ho'
  exact hid (List.mem_map_of_mem (f := OptionSpec.id) ho)

/-! ## Conversion -/

/-- **Properties survive the command line.** Arguments `-Dk=v` and `-Pk=v`, mixed in any way,
    with keys that are not empty and hold no `=`, and any values, are accepted. They are
    converted onto every configuration, and set the properties that they give: under each key
    is the last value that is given for it, or else the old one. All other fields stay as they
    were. -/
theorem parse_convertWith {ds ps : List Property} {args : List String}
    (h : TypesProperties ds ps args) (hds : ∀ d ∈ ds, d.WellKeyed) (hps : ∀ p ∈ ps, p.WellKeyed) :
    ∃ p, (buildSchema .standard).parse ((args.map (·.toUTF8.data.toList)).map .ofBytes) = .ok p ∧
      ∀ t, ∃ c, (Conversion.convertWith .standard p t).result = .ok c ∧
        (∀ key, c.systemProperties.find? key
          = (Property.lastValue? ds key).or (t.systemProperties.find? key)) ∧
        (∀ key, c.projectProperties.find? key
          = (Property.lastValue? ps key).or (t.projectProperties.find? key)) ∧
        ∀ f : Field, f ≠ .systemProperties → f ≠ .projectProperties → f.get c = f.get t := by
  obtain ⟨p, hp, hD, hP, hextra, habsent⟩ := h.exists_parse hds hps
  have hargs : (args.map (·.toUTF8.data.toList)).map RawText.ofBytes = args.map .ofString :=
    RawText.map_ofBytes_eq_iff.2 rfl
  refine ⟨p, hargs ▸ hp, fun t => ?_⟩
  obtain ⟨c, hc⟩ := (Conversion.exists_result_iff (t := t)).2
    (Rule.not_broken_of_absent fun id hid => habsent id (by revert id; decide))
  refine ⟨c, hc, fun key => ?_, fun key => ?_, fun f hf hf' => ?_⟩
  · have hsystem : c.systemProperties = putProperties t.systemProperties (p.values "D") :=
      Field.get_of_result_eq_ok hc .systemProperties
    rw [hsystem, hD, find?_putProperties,
      Property.map_ofText_map_text fun d hd => (hds d hd).notMem]
  · have hproject : c.projectProperties = putProperties t.projectProperties (p.values "P") :=
      Field.get_of_result_eq_ok hc .projectProperties
    rw [hproject, hP, find?_putProperties,
      Property.map_ofText_map_text fun p hp => (hps p hp).notMem]
  · have hids : ∀ id ∈ f.ids, id ∉ ["D", "P"] := by
      cases f with
      | systemProperties => exact absurd rfl hf
      | projectProperties => exact absurd rfl hf'
      | _ => decide
    rw [Field.get_of_result_eq_ok hc,
      Field.effect_of_silent ⟨fun id hid => habsent id (hids id hid), fun _ => hextra⟩]

/-- A key that is given twice as a system property, and once more as a project property; and
    values with `=`, with a dash and a line break, and without a character. -/
theorem parse_convertWith_repeated :
    (∀ d ∈ [⟨"a", "1=2"⟩, ⟨"-b", "-\n"⟩, ⟨"a", ""⟩], Property.WellKeyed d) ∧
    (∀ p ∈ [⟨"a", "x"⟩], Property.WellKeyed p) ∧
    ∃ p, (buildSchema .standard).parse
        ((["-Da=1=2", "-Pa=x", "-D-b=-\n", "-Da="].map (·.toUTF8.data.toList)).map .ofBytes)
        = .ok p ∧
      ∃ c, (Conversion.convertWith .standard p {}).result = .ok c ∧
        c.systemProperties.find? "a" = some "" ∧ c.systemProperties.find? "-b" = some "-\n" ∧
        c.projectProperties.find? "a" = some "x" ∧ c.projectProperties.find? "-b" = none := by
  have hds : ∀ d ∈ [⟨"a", "1=2"⟩, ⟨"-b", "-\n"⟩, ⟨"a", ""⟩], Property.WellKeyed d := by
    simp only [List.forall_mem_cons]
    exact ⟨⟨by decide, by decide⟩, ⟨by decide, by decide⟩, ⟨by decide, by decide⟩, nofun⟩
  have hps : ∀ p ∈ [⟨"a", "x"⟩], Property.WellKeyed p := by
    simp only [List.forall_mem_cons]
    exact ⟨⟨by decide, by decide⟩, nofun⟩
  have htypes : TypesProperties [⟨"a", "1=2"⟩, ⟨"-b", "-\n"⟩, ⟨"a", ""⟩] [⟨"a", "x"⟩]
      ["-Da=1=2", "-Pa=x", "-D-b=-\n", "-Da="] :=
    .system ⟨"a", "1=2"⟩ (.project ⟨"a", "x"⟩ (.system ⟨"-b", "-\n"⟩ (.system ⟨"a", ""⟩ .nil)))
  obtain ⟨p, hp, hall⟩ := parse_convertWith htypes hds hps
  obtain ⟨c, hc, hsystem, hproject, -⟩ := hall {}
  exact ⟨hds, hps, p, hp, c, hc, hsystem "a", hsystem "-b", hproject "a", hproject "-b"⟩

end TypesProperties
end LaunchConfig
