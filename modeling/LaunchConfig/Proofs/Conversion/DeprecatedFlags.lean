import LaunchConfig.Proofs.Arguments.NamedTasks
import LaunchConfig.Proofs.Conversion.Independence
import LaunchConfig.Proofs.Conversion.Records

/-!
# Deprecated flags

A deprecated flag stands for the task that is to be run instead. A command line with the task
in place of the flag is converted like the one with the flag, and is not warned of.

Where the flag is left out the arguments around it come together. If an option that goes without
its value comes to stand before the task, or before an argument that was separated from it by
the flag, it takes that as its value. The task is not run then.

Results:

* `Conversion.aliasRecords_drops`: what is missing of the warnings without a flag;
* `CommandLine.Drops.convertsAs`: what a conversion makes of a command line without the flag;
* `parse_named_iff`: when the task may be named in place of the flag.
-/

namespace LaunchConfig

variable {o : OptionSpec} {p q : CommandLine} {id : String}

/-! ## Without an option -/

theorem CommandLine.optionCount_eq (hhas : p.has id = true)
    (h : ∀ j, q.has j = (p.has j && j ≠ id)) : p.optionCount = q.optionCount + 1 := by
  have hnew : id ∉ q.options.keys := by
    have hid := h id
    simp only [ne_eq, not_true_eq_false, decide_false, Bool.and_false] at hid
    exact mt Dict.mem_keys_iff.1 (Bool.eq_false_iff.1 hid)
  have hmem (j : String) : j ∈ id :: q.options.keys ↔ p.has j = true := by
    rw [List.mem_cons, Dict.mem_keys_iff]
    by_cases heq : j = id
    · simp [heq, hhas]
    · have hj : q.options.contains j = (p.has j && j ≠ id) := h j
      simp [heq, hj]
  rw [optionCount_eq_length (List.nodup_cons.2 ⟨hnew, q.options.keys_nodup⟩) hmem,
    optionCount_eq_length q.options.keys_nodup fun _ => Dict.mem_keys_iff, List.length_cons]

namespace Conversion

theorem aliasRecords_drops (ho : o ∈ BuildOption.aliases) (hhas : p.has o.id = true)
    (h : ∀ j, q.has j = (p.has j && j ≠ o.id)) :
    ∃ before after, aliasRecords p = before ++ aliasRecord o :: after ∧
      aliasRecords q = before ++ after := by
  obtain ⟨earlier, later, haliases⟩ := List.append_of_mem ho
  have hids : (BuildOption.aliases.map (·.id)).Nodup := by decide
  rw [haliases, List.map_append, List.map_cons, List.nodup_append, List.nodup_cons] at hids
  obtain ⟨-, ⟨hlater, -⟩, hearlier⟩ := hids
  have hsame (l : List OptionSpec) (hl : ∀ o' ∈ l, o'.id ≠ o.id) :
      l.filter (fun o' => q.has o'.id) = l.filter fun o' => p.has o'.id :=
    List.filter_congr fun o' ho' => by simp [h, hl o' ho']
  have hkept : (o :: later).filter (fun o' => p.has o'.id)
      = o :: later.filter fun o' => p.has o'.id := List.filter_cons_of_pos hhas
  have hdropped : q.has o.id = false := by simp [h]
  refine ⟨(earlier.filter fun o' => p.has o'.id).map aliasRecord,
    (later.filter fun o' => p.has o'.id).map aliasRecord, ?_, ?_⟩
  · rw [aliasRecords, haliases, List.filter_append, hkept, List.map_append, List.map_cons]
  · have hearlier' : ∀ o' ∈ earlier, o'.id ≠ o.id := fun o' ho' =>
      hearlier _ (List.mem_map_of_mem ho') _ List.mem_cons_self
    have hlater' : ∀ o' ∈ later, o'.id ≠ o.id := fun o' ho' hid =>
      hlater (hid ▸ List.mem_map_of_mem ho')
    rw [aliasRecords, haliases, List.filter_append, List.filter_cons_of_neg (by simp [hdropped]),
      List.map_append, hsame earlier hearlier', hsame later hlater']

end Conversion

/-! ## Converting alike -/

open Conversion (convertWith validate countRecord aliasRecord propertiesRecord
  dependenciesRecord tasksRecord)

/-- The command lines are converted onto every configuration with the same result. With the
    first there is a warning of the option, and an option more is counted. -/
structure CommandLine.ConvertsAs (o : OptionSpec) (p q : CommandLine) : Prop where
  optionCount_eq : p.optionCount = q.optionCount + 1
  result_eq (c : Configuration) :
    (convertWith .standard p c).result = (convertWith .standard q c).result
  records (c : Configuration) :
    ((convertWith .standard p c).records = [] ∧ (convertWith .standard q c).records = []) ∨
      ∃ before after,
        (convertWith .standard p c).records
          = countRecord p :: (before ++ aliasRecord o :: after) ∧
        (convertWith .standard q c).records = countRecord q :: (before ++ after)

namespace CommandLine

theorem has_eq_of_alias (ho : o ∈ BuildOption.aliases) (h : ∀ j, q.has j = (p.has j && j ≠ o.id))
    (f : Field) : ∀ id ∈ f.ids, p.has id = q.has id := by
  intro id hid
  have hne : id ≠ o.id := by
    rintro rfl
    exact (Field.mem_ids hid).2 (List.mem_map_of_mem ho)
  simp [h, hne]

theorem convertsAs_of_invalid {e : ConversionError} (hcount : p.optionCount = q.optionCount + 1)
    (hp : validate p = .error e) (hq : validate q = .error e) : p.ConvertsAs o q := by
  refine ⟨hcount, fun c => ?_, fun c => .inl ?_⟩
  · rw [Conversion.convertWith_of_invalid hp, Conversion.convertWith_of_invalid hq]
  · rw [Conversion.convertWith_of_invalid hp, Conversion.convertWith_of_invalid hq]
    exact ⟨rfl, rfl⟩

/-- A command line without a deprecated flag is converted like the one with it. -/
theorem Drops.convertsAs (ho : o ∈ BuildOption.aliases) (hhas : p.has o.id = true)
    (h : p.Drops o.id q) : p.ConvertsAs o q := by
  have hcount : p.optionCount = q.optionCount + 1 := optionCount_eq hhas h.has_eq
  have hagree (f : Field) : f.Agree p q :=
    ⟨has_eq_of_alias ho h.has_eq f, fun id _ => (h.values_eq id).symm, fun _ => h.extra_eq.symm⟩
  cases hp : validate p with
  | error e =>
    have hq : validate q = .error e := by
      rw [← hp]
      exact (Conversion.validate_congr (fun f => (hagree f).has)
        ((hagree .cacheUsage).value? _ List.mem_cons_self)).symm
    exact convertsAs_of_invalid hcount hp hq
  | ok usage? =>
    refine ⟨hcount, Conversion.result_congr hagree, fun c => ?_⟩
    obtain ⟨d, hd⟩ : ∃ d, (convertWith .standard p c).result = .ok d :=
      ⟨_, Conversion.convertWith_of_ok hp (LoggingSource.convert_standard p c.logging)⟩
    have hd' := (Conversion.result_congr hagree c).symm.trans hd
    obtain ⟨before, after, hbefore, hafter⟩ := Conversion.aliasRecords_drops ho hhas h.has_eq
    refine .inr ⟨before, after ++ [propertiesRecord d, dependenciesRecord d, tasksRecord d],
      ?_, ?_⟩
    · rw [Conversion.records_of_ok hd, hbefore, List.append_assoc, List.cons_append]
    · rw [Conversion.records_of_ok hd', hafter, List.append_assoc]

/-- What is converted alike names the same tasks, if the checks pass. -/
theorem ConvertsAs.extra_eq (h : p.ConvertsAs o q) {usage? : Option CacheUsage}
    (hp : validate p = .ok usage?) : p.extra = q.extra := by
  have hp := Conversion.convertWith_of_ok (c := {}) hp (LoggingSource.convert_standard p _)
  have hq := (h.result_eq {}).symm.trans hp
  have htasks (r : CommandLine) : Field.taskNames.effect r [] = r.extra := by
    cases hextra : r.extra <;> simp [Field.effect, hextra]
  rw [← htasks p, ← htasks q]
  exact (Field.get_of_result_eq_ok hp .taskNames).symm.trans
    (Field.get_of_result_eq_ok hq .taskNames)

end CommandLine

/-! ## Tasks in place of flags -/

open BuildOption (dryRun initScript tasks)
open Piece (Swallows join named)

/-- **When the task may be named in place of a deprecated flag.** Arguments that the options of
    a build accept can be cut into pieces up to the end of the options. Put the task where a
    deprecated flag is first given, and leave out the flag from then on: the arguments are
    accepted. They are converted with the same result, whatever is converted onto, and with the
    same records but for the warning and the number of options, exactly unless the checks pass
    and an option that is left without its value comes to stand right before a positional
    argument. -/
theorem parse_named_iff {args : List (List UInt8)} {p : CommandLine}
    (h : (buildSchema .standard).parse (args.map .ofBytes) = .ok p) :
    (∃ ps rest, (buildSchema .standard).CutsInto args ps rest) ∧
    ∀ (before after : List Piece) (f : Piece) (rest : List String) (o : OptionSpec) (t : String),
      (buildSchema .standard).CutsInto args (before ++ f :: after) rest →
      o ∈ BuildOption.aliases → o.task? = some t → f.meaning = .flag o →
      (∀ piece ∈ before, piece.meaning ≠ .flag o) →
      ∃ q, (buildSchema .standard).parse
          (((join (named o t before after) ++ rest).map (·.toUTF8.data.toList)).map .ofBytes)
            = .ok q ∧
        (p.ConvertsAs o q ↔
          (∃ e, validate p = .error e) ∨ ¬ Swallows (named o t before after)) := by
  have hs := registered_buildSchema_standard.distinct
  have ht := typable_buildSchema_standard
  have hvalue : ∀ o ∈ (buildSchema .standard).options, o.takesValue = true → o.task? = none := by
    rw [registered_buildSchema]
    decide
  have hstring (ts : List String) :
      (ts.map (·.toUTF8.data.toList)).map RawText.ofBytes = ts.map .ofString :=
    RawText.map_ofBytes_eq_iff.2 rfl
  refine ⟨Schema.exists_cutsInto_of_parse hs ht h, ?_⟩
  rintro before after f rest o t ⟨ts, rfl, hescape, hrest, hps⟩ ho htask hf hbefore
  rw [hstring] at h ⊢
  have hplain : ∀ o ∈ BuildOption.aliases, ∀ t ∈ o.task?, Token.IsPlain (.ofString t) := by decide
  obtain ⟨q, hq, hflag, hhas, hsingle, hdrops, hlt⟩ := Schema.exists_parse_named hs ht hvalue h
    hrest hps hescape hf htask (hplain o ho t htask) hbefore
  refine ⟨q, hq, fun hconverts => ?_, ?_⟩
  · cases hp : validate p with
    | error e => exact .inl ⟨e, rfl⟩
    | ok usage? =>
      refine .inr fun hswallows => ?_
      have hlt := hlt hswallows
      rw [hconverts.extra_eq hp] at hlt
      exact Nat.lt_irrefl _ hlt
  · rintro (⟨e, hp⟩ | hswallows)
    · have hcache : p.value? BuildOption.cache.id = q.value? BuildOption.cache.id := by
        rw [CommandLine.value?, CommandLine.value?, hsingle BuildOption.cache
          (mem_options_of_mem_all (by decide)) rfl]
      have hq : validate q = .error e := by
        rw [← hp]
        exact (Conversion.validate_congr (CommandLine.has_eq_of_alias ho hhas) hcache).symm
      exact CommandLine.convertsAs_of_invalid (CommandLine.optionCount_eq hflag hhas) hp hq
    · exact (hdrops hswallows).convertsAs ho hflag

/-- The task comes to stand where the flag shares an argument with another flag. That it is
    asked for again makes no difference, and what comes after the end of the options stays. -/
theorem parse_named_tasks :
    (buildSchema .standard).parse
        ((["-mt", "build", "--tasks", "--", "-t"].map (·.toUTF8.data.toList)).map .ofBytes)
      = .ok (.build [.option "m", .option "t", .extra ["tasks", "build", "-t"]]) ∧
    (buildSchema .standard).CutsInto
      (["-mt", "build", "--tasks", "--", "-t"].map (·.toUTF8.data.toList))
      ([⟨["-m"], .flag dryRun⟩] ++ ⟨["-t"], .flag tasks⟩ ::
        [⟨["build"], .positional "build"⟩, ⟨["--tasks"], .flag tasks⟩]) ["--", "-t"] ∧
    ∃ q, (buildSchema .standard).parse
        ((["-m", "tasks", "build", "--", "-t"].map (·.toUTF8.data.toList)).map .ofBytes) = .ok q ∧
      CommandLine.ConvertsAs tasks
        (.build [.option "m", .option "t", .extra ["tasks", "build", "-t"]]) q := by
  have h : (buildSchema .standard).parse
        ((["-mt", "build", "--tasks", "--", "-t"].map (·.toUTF8.data.toList)).map .ofBytes)
      = .ok (.build [.option "m", .option "t", .extra ["tasks", "build", "-t"]]) := by
    decide +kernel
  have ht := typable_buildSchema_standard
  have hm : dryRun ∈ (buildSchema .standard).options :=
    mem_options_of_mem_all (by decide)
  have htasks : tasks ∈ (buildSchema .standard).options :=
    mem_options_of_mem_all (by decide)
  have hlong : Spells (buildSchema .standard) "--tasks" [.flag tasks] none :=
    .longFlag (l := "tasks") htasks rfl rfl
  have hcuts : Cuts (buildSchema .standard) ["-mt", "build", "--tasks"]
      ([⟨["-m"], .flag dryRun⟩] ++ ⟨["-t"], .flag tasks⟩ ::
        [⟨["build"], .positional "build"⟩, ⟨["--tasks"], .flag tasks⟩]) :=
    .letter hm rfl rfl (by decide) (.named ht spells_tasks (.positional (by decide)
      (.named ht hlong .nil)))
  have hcut : (buildSchema .standard).CutsInto
      (["-mt", "build", "--tasks", "--", "-t"].map (·.toUTF8.data.toList)) _ ["--", "-t"] :=
    ⟨_, rfl, by decide, by decide, hcuts⟩
  obtain ⟨q, hq, hiff⟩ := (parse_named_iff h).2 _ _ _ _ tasks "tasks" hcut (by decide)
    rfl rfl (by decide)
  refine ⟨h, hcut, q, hq, hiff.2 (.inr ?_)⟩
  rintro ⟨o, t, hinfix⟩
  have hbare := hinfix.subset List.mem_cons_self
  simp [named] at hbare

/-- The task may not be named behind an option that is left without its value: `-I x -I -t` runs
    the tasks, and `-I x -I tasks` runs none, but has an initialization script more. -/
theorem not_convertsAs_initScript :
    (buildSchema .standard).parse
        ((["-I", "x", "-I", "-t"].map (·.toUTF8.data.toList)).map .ofBytes)
      = .ok (.build [.values "I" ["x"], .option "t", .extra ["tasks"]]) ∧
    (buildSchema .standard).CutsInto (["-I", "x", "-I", "-t"].map (·.toUTF8.data.toList))
      [⟨["-I", "x"], .valued initScript "x"⟩, ⟨["-I"], .bare initScript⟩,
        ⟨["-t"], .flag tasks⟩] [] ∧
    (buildSchema .standard).parse
        ((["-I", "x", "-I", "tasks"].map (·.toUTF8.data.toList)).map .ofBytes)
      = .ok (.build [.values "I" ["x", "tasks"]]) ∧
    (convertWith .standard (.build [.values "I" ["x"], .option "t", .extra ["tasks"]])
      {}).result.map (fun c => (c.initScripts, c.taskNames))
        = .ok ([.ofString "x"], ["tasks"]) ∧
    (convertWith .standard (.build [.values "I" ["x", "tasks"]])
      {}).result.map (fun c => (c.initScripts, c.taskNames))
        = .ok ([.ofString "x", .ofString "tasks"], []) := by
  have ht := typable_buildSchema_standard
  have hcuts : Cuts (buildSchema .standard) ["-I", "x", "-I", "-t"]
      [⟨["-I", "x"], .valued initScript "x"⟩, ⟨["-I"], .bare initScript⟩,
        ⟨["-t"], .flag tasks⟩] :=
    .detached ht spells_initScript (by decide)
      (.bare ht spells_initScript (by decide) (.named ht spells_tasks .nil))
  exact ⟨by decide +kernel, ⟨_, rfl, by decide, nofun, hcuts⟩, by decide +kernel, rfl, rfl⟩

end LaunchConfig
